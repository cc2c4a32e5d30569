import Shading.Proofs.Agreement

/-!
# Better informed resolvers

One resolver knows at least what another knows if it gives every symbol that the other gives. What a
lowering decides with the symbols of the other it decides with these too, since a symbol of the
wrong sort is an answer, and stays one.

* `Resolver.Le`: the order; `SymbolTable.byIdentifier_le_insertAll`, `SymbolTable.byIdentifier_le_byPath`:
  a table that identifiers are added to, and a table that is read by paths, know at least as much.
* `Context.settles_of_le`: **only failures about unresolved symbols can go away.**
* `Context.emit_resolvingBy`: the same for tables; reading one by paths makes no difference to a
  method that constructs no type under a dotted name.
-/

namespace Shading

/-- `r.Le r'` iff `r'` gives every symbol that `r` gives. -/
protected def Resolver.Le (r r' : Resolver) : Prop :=
  ∀ n s, r n = some s → r' n = some s

namespace Table

variable {κ α : Type} [DecidableEq κ]

/-- Entries under new keys leave the old keys alone. -/
theorem get?_insertAll_of_new {t : Table κ α} {entries : List (κ × α)}
    (h : ∀ entry ∈ entries, entry.1 ∉ t.keys) {k : κ} {a : α} (hk : t.get? k = some a) :
    (t.insertAll entries).get? k = some a := by
  have hmem : k ∈ t.keys := by
    rw [← isSome_get?, hk]
    rfl
  have hnone : entries.reverse.lookup k = none := by
    rw [lookup_eq_none_iff]
    intro b hb
    exact h _ (List.mem_reverse.1 hb) hmem
  rw [get?_insertAll, hnone, hk]
  rfl

end Table

namespace SymbolTable

variable (t : SymbolTable)

theorem byIdentifier_le_insertAll {entries : List (String × Symbol)}
    (h : ∀ entry ∈ entries, entry.1 ∉ t.keys) :
    t.byIdentifier.Le (byIdentifier (t.insertAll entries)) := by
  intro n s hs
  obtain ⟨id, hid, hs⟩ := Option.bind_eq_some_iff.1 hs
  have hs' : (t.insertAll entries).get? id = some s := Table.get?_insertAll_of_new h hs
  rw [byIdentifier, hid]
  exact hs'

theorem byIdentifier_le_byPath : t.byIdentifier.Le t.byPath :=
  fun _ _ => byPath_of_byIdentifier

/-- Only member accesses have a path without being a bare name. -/
theorem byPath_eq_byIdentifier {n : Node} (h : n.kind ≠ .memberAccess) :
    t.byPath n = t.byIdentifier n := by
  cases n with
  | memberAccess => exact absurd rfl h
  | _ => rfl

end SymbolTable

/-- No type that is constructed anywhere in the body is written as a member access. -/
def Definition.ConstructsByName (d : Definition) : Prop :=
  ∀ n ∈ d.body.statements, ∀ loc type listLoc args,
    Node.Part (.objectCreation loc type listLoc args) n → type.kind ≠ .memberAccess

namespace Context

/-- The context with another resolver. -/
def resolvingBy (ctx : Context) (r : Resolver) : Context :=
  { ctx with resolve := r }

variable {ctx : Context} {r : Resolver}

theorem calledFunction_eqUnless_of_le (h : ctx.resolve.Le r) (callee site : Node) :
    (ctx.calledFunction callee site).EqUnless (·.cause.kind = .unresolvedSymbol)
      ((ctx.resolvingBy r).calledFunction callee site) := by
  unfold calledFunction calledMethod
  cases callee.ident? with
  | none => exact .refl _ _
  | some id =>
    cases hs : ctx.resolve callee with
    | none => exact .inr ⟨.report ctx.file (.unresolvedCall id) site, rfl, rfl⟩
    | some s =>
      -- a symbol that is no method of a named type fails in both
      have hs' : (ctx.resolvingBy r).resolve callee = some s := h callee s hs
      rw [hs']
      exact .refl _ _

theorem constructor_eqUnless_of_le (h : ctx.resolve.Le r) (type site : Node) :
    (ctx.constructor type site).EqUnless (·.cause.kind = .unresolvedSymbol)
      ((ctx.resolvingBy r).constructor type site) := by
  unfold constructor constructedType
  cases hs : ctx.resolve type with
  | none =>
    exact .inr ⟨.report ctx.file (.unresolvedType (type.ident?.getD type.kind.label)) site, rfl, rfl⟩
  | some s =>
    have hs' : (ctx.resolvingBy r).resolve type = some s := h type s hs
    rw [hs']
    exact .refl _ _

theorem answersAlikeIn_of_le (h : ctx.resolve.Le r) (d : Definition) :
    AnswersAlikeIn (·.kind = .unresolvedSymbol) ctx (ctx.resolvingBy r) d where
  file := rfl
  signature _ _ := .refl _ _
  body _ _ m _ := by
    cases m with
    | invocation loc callee listLoc args => exact calledFunction_eqUnless_of_le h _ _
    | objectCreation loc type listLoc args => exact constructor_eqUnless_of_le h _ _
    | localDeclaration loc decl => exact .refl _ _
    | _ => trivial
  inSignature cause hcause := by rwa [Cause.kind_inSignature]

/-- **A better informed resolver changes nothing that was decided.** -/
theorem settles_of_le (h : ctx.resolve.Le r) (d : Definition) :
    Settles .unresolvedSymbol ctx (ctx.resolvingBy r) d :=
  settles_of_eqUnless (emit_eqUnless (answersAlikeIn_of_le h d)) fun _ hcause => hcause

/-- A call goes through a bare name, so it does not matter whether paths are read. -/
theorem calledFunction_byPath (ctx : Context) (t : SymbolTable) (callee site : Node) :
    (ctx.resolvingBy t.byPath).calledFunction callee site =
      (ctx.resolvingBy t.byIdentifier).calledFunction callee site := by
  cases callee <;> rfl

/-- A construction asks what its type denotes and nothing else. -/
theorem constructor_resolvingBy_congr {r r' : Resolver} {type : Node} (h : r type = r' type)
    (ctx : Context) (site : Node) :
    (ctx.resolvingBy r).constructor type site = (ctx.resolvingBy r').constructor type site := by
  have hresolve : (ctx.resolvingBy r).resolve type = (ctx.resolvingBy r').resolve type := h
  unfold constructor constructedType
  rw [hresolve]
  rfl

/-- Where types are constructed under bare names only, all is answered alike by paths. -/
theorem answersAlikeIn_byPath (ctx : Context) (t : SymbolTable) {d : Definition}
    (hd : d.ConstructsByName) :
    AnswersAlikeIn (fun _ => False) (ctx.resolvingBy t.byIdentifier) (ctx.resolvingBy t.byPath)
      d where
  file := rfl
  signature _ _ := .refl _ _
  body n hn m hm := by
    cases m with
    | invocation loc callee listLoc args =>
      exact .inl (calledFunction_byPath ctx t callee _).symm
    | objectCreation loc type listLoc args =>
      have htype := t.byPath_eq_byIdentifier (hd n hn loc type listLoc args hm)
      exact .inl (constructor_resolvingBy_congr htype.symm ctx _)
    | localDeclaration loc decl => exact .refl _ _
    | _ => trivial
  inSignature _ hcause := hcause

theorem emit_byPath (ctx : Context) (t : SymbolTable) {d : Definition} (hd : d.ConstructsByName) :
    (ctx.resolvingBy t.byPath).emit d = (ctx.resolvingBy t.byIdentifier).emit d :=
  ((emit_eqUnless (answersAlikeIn_byPath ctx t hd)).eq_of_never fun _ h => h).symm

/-- **A better informed resolver never changes what was decided.** That a name denotes nothing can
change, and only that. It does so neither way where a table is read by identifiers and where it is
read by paths, unless a type is constructed under a dotted name. -/
theorem emit_resolvingBy (ctx : Context) (d : Definition) :
    (∀ r r' : Resolver, r.Le r' →
      Settles .unresolvedSymbol (ctx.resolvingBy r) (ctx.resolvingBy r') d) ∧
    (∀ (t : SymbolTable) (entries : List (String × Symbol)),
      (∀ entry ∈ entries, entry.1 ∉ t.keys) →
      Settles .unresolvedSymbol (ctx.resolvingBy t.byIdentifier)
        (ctx.resolvingBy (SymbolTable.byIdentifier (t.insertAll entries))) d) ∧
    ∀ t : SymbolTable,
      Settles .unresolvedSymbol (ctx.resolvingBy t.byIdentifier) (ctx.resolvingBy t.byPath) d ∧
      (d.ConstructsByName →
        (ctx.resolvingBy t.byPath).emit d = (ctx.resolvingBy t.byIdentifier).emit d) := by
  have hle : ∀ r r' : Resolver, r.Le r' →
      Settles .unresolvedSymbol (ctx.resolvingBy r) (ctx.resolvingBy r') d :=
    fun r r' h => @settles_of_le (ctx.resolvingBy r) r' h d
  refine ⟨hle, fun t entries h => ?_, fun t => ⟨?_, emit_byPath ctx t⟩⟩
  · exact hle _ _ (t.byIdentifier_le_insertAll h)
  · exact hle _ _ t.byIdentifier_le_byPath

/-- A construction under a bare name comes out the same when an identifier is added to the table and
when the table is read by paths. -/
theorem construction_keeps_symbol :
    let t : SymbolTable := .ofList [("Real", .type "float" none)]
    let entries : List (String × Symbol) := [("Mystery", .method "System.Math" "Max")]
    let creation : Node := .objectCreation .unknown (.name .unknown "Real") .unknown []
    let d : Definition :=
      ⟨⟨"Foo", ⟨"float", none⟩, []⟩, .bare [.returnStatement .unknown creation]⟩
    let text := "float Foo()\n\x7b\nreturn float();\n\x7d\n"
    d.ConstructsByName ∧
      ((floatOnly.resolvingBy t.byIdentifier).emit d).outcome = .ok text ∧
      ((floatOnly.resolvingBy (SymbolTable.byIdentifier (t.insertAll entries))).emit d).outcome =
        .ok text ∧
      ((floatOnly.resolvingBy t.byPath).emit d).outcome = .ok text := by
  intro t entries creation d text
  have hd : d.ConstructsByName := by
    intro n hn loc type listLoc args hm
    obtain rfl := List.mem_singleton.1 hn
    rcases hm with _ | ⟨hmem, hm⟩
    obtain ⟨-, rfl⟩ := Node.eq_of_mem_singleton_operand hmem
    have hm : Node.Part (.objectCreation loc type listLoc args)
      (.objectCreation .unknown (.name .unknown "Real") .unknown []) := hm
    cases hm with
    | whole => exact nofun
    | operand hmem _ => cases hmem
  have hok : ((floatOnly.resolvingBy t.byIdentifier).emit d).outcome = .ok text := rfl
  have hnew : ∀ entry ∈ entries, entry.1 ∉ t.keys := by decide
  obtain ⟨-, hadded, hread⟩ := emit_resolvingBy floatOnly d
  refine ⟨hd, hok, ?_, ?_⟩
  · -- nothing fails, so nothing fails about a symbol
    have hsame := hadded t entries hnew fun e he => by
      rw [hok] at he
      cases he
    rw [hsame, hok]
  · rw [(hread t).2 hd, hok]

end Context

end Shading
