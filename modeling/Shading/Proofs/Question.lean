import Shading.Proofs.Agreement

/-!
# What a lowering asks

A lowering puts two sorts of questions: to the resolver what a callee or a constructed type denotes,
and to the dialect what a type or a method is called. Which words are asked for depends on what the
resolver has answered. Here are the questions, told from the tree, and the reason why nothing else
in a context matters.

* `Node.denoting`, `Context.lookups`: the questions of a node itself, its operands apart.
* `Context.SameAnswers`: two contexts that answer all questions of a method alike.
* `Context.emit_of_sameAnswers`: **a source text or failure, and the log, depend on the answers to
  these questions only.**
-/

namespace Shading

/-- The nodes of which `n` itself asks what they denote: the callee of a call, if it is a bare name,
or the type of a construction. -/
def Node.denoting : Node → List Node
  | .invocation _ callee _ _ => if callee.kind = .name then [callee] else []
  | .objectCreation _ type _ _ => [type]
  | _ => []

namespace Context

section Questions

variable (ctx ctx' : Context)

/-- The keys under which `n` itself looks something up: the type that it declares, or what the
resolver says that it calls or constructs. -/
def lookups : Node → List Lookup
  | .localDeclaration _ decl => [.type decl.type.fullName]
  | .invocation loc callee listLoc args =>
    (Node.invocation loc callee listLoc args).denoting.filterMap fun k =>
      ((ctx.resolve k).bind Symbol.methodKey?).map .method
  | .objectCreation loc type listLoc args =>
    (Node.objectCreation loc type listLoc args).denoting.filterMap fun k =>
      ((ctx.resolve k).bind Symbol.typeName?).map .type
  | _ => []

/-- The two contexts have one file and dialects of one name, and they answer alike what a lowering
of `d` asks. The words are those that the first resolver leads to. -/
structure SameAnswers (d : Definition) : Prop where
  file : ctx'.file = ctx.file
  dialectName : ctx'.dialect.name = ctx.dialect.name
  symbols : ∀ s ∈ d.body.statements, ∀ n, Node.Part n s → ∀ k ∈ n.denoting,
    ctx'.resolve k = ctx.resolve k
  signature : ∀ t ∈ d.method.signatureTypes,
    ctx'.dialect.find? (.type t.fullName) = ctx.dialect.find? (.type t.fullName)
  words : ∀ s ∈ d.body.statements, ∀ n, Node.Part n s → ∀ l ∈ ctx.lookups n,
    ctx'.dialect.find? l = ctx.dialect.find? l

end Questions

variable {ctx ctx' : Context}

/-- A look-up depends on the answer, and on the name and the file that a failure shows. -/
theorem find_congr (hfile : ctx'.file = ctx.file) (hname : ctx'.dialect.name = ctx.dialect.name)
    {l : Lookup} (hl : ctx'.dialect.find? l = ctx.dialect.find? l) (site : Node) :
    ctx'.find l site = ctx.find l site := by
  unfold find reject
  rw [hl, hname, hfile]

/-- A call asks what its callee denotes, and then for the method that it denotes. -/
theorem calledFunction_congr (hfile : ctx'.file = ctx.file)
    (hname : ctx'.dialect.name = ctx.dialect.name) {loc listLoc : Location} {callee : Node}
    {args : List Argument}
    (hsymbols : ∀ k ∈ (Node.invocation loc callee listLoc args).denoting,
      ctx'.resolve k = ctx.resolve k)
    (hwords : ∀ l ∈ ctx.lookups (.invocation loc callee listLoc args),
      ctx'.dialect.find? l = ctx.dialect.find? l) (site : Node) :
    ctx'.calledFunction callee site = ctx.calledFunction callee site := by
  cases callee with
  | name nameLoc id =>
    have hsymbol : ctx'.resolve (.name nameLoc id) = ctx.resolve (.name nameLoc id) :=
      hsymbols _ (List.mem_singleton_self _)
    unfold calledFunction calledMethod
    simp only [Node.ident?, hsymbol, hfile]
    cases hkey : (ctx.resolve (.name nameLoc id)).bind Symbol.methodKey? with
    | none => rfl
    | some key =>
      -- the key is among those that the call asks for
      have hmem : Lookup.method key ∈
          ctx.lookups (.invocation loc (.name nameLoc id) listLoc args) := by
        refine List.mem_filterMap.2 ⟨.name nameLoc id, List.mem_singleton_self _, ?_⟩
        rw [hkey]
        rfl
      exact find_congr hfile hname (hwords _ hmem) site
  | _ =>
    -- without a bare name nothing is asked
    unfold calledFunction calledMethod
    simp only [Node.ident?, hfile]

theorem constructor_congr (hfile : ctx'.file = ctx.file)
    (hname : ctx'.dialect.name = ctx.dialect.name) {loc listLoc : Location} {type : Node}
    {args : List Argument}
    (hsymbols : ∀ k ∈ (Node.objectCreation loc type listLoc args).denoting,
      ctx'.resolve k = ctx.resolve k)
    (hwords : ∀ l ∈ ctx.lookups (.objectCreation loc type listLoc args),
      ctx'.dialect.find? l = ctx.dialect.find? l) (site : Node) :
    ctx'.constructor type site = ctx.constructor type site := by
  have hsymbol : ctx'.resolve type = ctx.resolve type := hsymbols _ (List.mem_singleton_self _)
  unfold constructor constructedType
  rw [hsymbol, hfile]
  cases htype : (ctx.resolve type).bind Symbol.typeName? with
  | none => rfl
  | some name =>
    have hmem : Lookup.type name ∈ ctx.lookups (.objectCreation loc type listLoc args) := by
      refine List.mem_filterMap.2 ⟨type, List.mem_singleton_self _, ?_⟩
      rw [htype]
      rfl
    exact find_congr hfile hname (hwords _ hmem) site

theorem SameAnswers.answersAlike {d : Definition} (h : SameAnswers ctx ctx' d) {s n : Node}
    (hs : s ∈ d.body.statements) (hn : n.Part s) :
    AnswersAlike (fun _ => False) ctx ctx' n := by
  have hsymbols := h.symbols s hs n hn
  have hwords := h.words s hs n hn
  cases n with
  | invocation loc callee listLoc args =>
    exact .inl (calledFunction_congr h.file h.dialectName hsymbols hwords _).symm
  | objectCreation loc type listLoc args =>
    exact .inl (constructor_congr h.file h.dialectName hsymbols hwords _).symm
  | localDeclaration loc decl =>
    have hword := hwords _ (List.mem_singleton_self _)
    exact .inl (find_congr h.file h.dialectName hword _).symm
  | _ => trivial

theorem SameAnswers.answersAlikeIn {d : Definition} (h : SameAnswers ctx ctx' d) :
    AnswersAlikeIn (fun _ => False) ctx ctx' d where
  file := h.file
  signature t ht := .inl (find_congr h.file h.dialectName (h.signature t ht) _).symm
  body _ hs _ hn := h.answersAlike hs hn
  inSignature _ hcause := hcause

/-- **A lowering depends on its context only through what it asks.** Contexts that answer the
questions of a method alike give the same source text, or the same failure at the same node, and
leave the same log. -/
theorem emit_of_sameAnswers {d : Definition} (h : SameAnswers ctx ctx' d) :
    ctx'.emit d = ctx.emit d := by
  have hsame := emit_eqUnless h.answersAlikeIn
  exact (hsame.eq_of_never fun _ hcause => hcause).symm

/-- Other types, methods and identifiers do not matter to a call with a construction in it, nor does
it that the second table is read by paths. -/
theorem call_ignores_other_entries :
    let float : TypeRef := ⟨"float", none⟩
    let max : MethodKey := ⟨"System.Math", "Max"⟩
    let min : MethodKey := ⟨"System.Math", "Min"⟩
    let t : SymbolTable := .ofList
      [("Max", .method "System.Math" "Max"), ("Real", .type "float" none)]
    let t' : SymbolTable := .ofList [("Real", .type "float" none),
      ("Max", .method "System.Math" "Max"), ("Min", .method "System.Math" "Min")]
    let ctx : Context := ⟨⟨"HLSL", .ofList [("float", "float")], .ofList [(max, "max")]⟩,
      t.byIdentifier, none⟩
    let ctx' : Context := ⟨⟨"HLSL", .ofList [("int", "int"), ("float", "float")],
      .ofList [(min, "min"), (max, "max")]⟩, t'.byPath, none⟩
    let creation : Node := .objectCreation .unknown (.name .unknown "Real") .unknown []
    let call : Node := .invocation .unknown (.name .unknown "Max") .unknown
      [⟨.unknown, creation⟩, ⟨.unknown, .name .unknown "a"⟩]
    let d : Definition := ⟨⟨"Foo", float, [⟨"a", float⟩]⟩, .bare [.returnStatement .unknown call]⟩
    SameAnswers ctx ctx' d ∧
      (ctx.emit d).outcome = .ok "float Foo(float a)\n\x7b\nreturn max(float(), a);\n\x7d\n" ∧
      ctx'.emit d = ctx.emit d := by
  intro float max min t t' ctx ctx' creation call d
  -- what each part asks, from the statement down to the names
  have hpart : ∀ n, Node.Part n (.returnStatement .unknown call) →
      (∀ k ∈ n.denoting, ctx'.resolve k = ctx.resolve k) ∧
        ∀ l ∈ ctx.lookups n, ctx'.dialect.find? l = ctx.dialect.find? l := by
    refine Node.forall_part_iff.2 ⟨⟨nofun, nofun⟩, ?_⟩
    refine List.forall_mem_singleton.2 (Node.forall_part_iff.2 ⟨⟨?_, ?_⟩, ?_⟩)
    · exact List.forall_mem_singleton.2 (by decide)
    · exact List.forall_mem_singleton.2 (by decide)
    refine List.forall_mem_cons.2 ⟨Node.forall_part_iff.2 ⟨⟨?_, ?_⟩, nofun⟩, ?_⟩
    · exact List.forall_mem_singleton.2 (by decide)
    · exact List.forall_mem_singleton.2 (by decide)
    · exact List.forall_mem_singleton.2 (Node.forall_part_iff.2 ⟨⟨nofun, nofun⟩, nofun⟩)
  have h : SameAnswers ctx ctx' d := by
    refine ⟨rfl, rfl, ?_, by decide, ?_⟩
    · intro s hs n hn
      obtain rfl := List.mem_singleton.1 hs
      exact (hpart n hn).1
    · intro s hs n hn
      obtain rfl := List.mem_singleton.1 hs
      exact (hpart n hn).2
  exact ⟨h, rfl, emit_of_sameAnswers h⟩

end Context

end Shading
