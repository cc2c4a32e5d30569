import Shading.Proofs.Agreement

/-!
# Lowering in an extended dialect

An extension may repeat what a dialect has already. As long as it gives no key another word, it
only answers questions that had no answer before, and a method that does not come to such a question
is lowered as it was.

* `Extension.Conserves`: the extension has no other words for what the dialect has.
* `Context.exists_lack_of_emit`: a failure about an unmapped name says which question the dialect
  has no answer to.
* `Context.emit_extend`: **extending a dialect changes nothing but failures at questions that the
  extension answers.**
-/

namespace Shading

/-- The extension has no other word for a type or method that the dialect has. -/
def Extension.Conserves (x : Extension) (d : Dialect) : Prop :=
  ∀ l word word', d.find? l = some word → x.find? l = some word' → word' = word

namespace Dialect

variable {d : Dialect} {x : Extension} {l : Lookup}

theorem find?_extend_of_conserves (h : x.Conserves d) {word : String}
    (hd : d.find? l = some word) : (d.extend x).find? l = some word := by
  rw [find?_extend]
  cases hx : x.find? l with
  | none => exact hd
  | some word' => rw [h l word word' hd hx, Option.some_or]

theorem find?_extend_eq_none :
    (d.extend x).find? l = none ↔ x.find? l = none ∧ d.find? l = none := by
  rw [find?_extend, Option.or_eq_none_iff]

end Dialect

/-- The question without an answer that a failure reports, if it reports one. -/
def Cause.missing? : Cause → Option Unmapped
  | unmapped missing | unmappedInSignature missing _ => some missing
  | _ => none

/-- Only failures about unmapped names report a question. -/
theorem Cause.kind_of_missing? {c : Cause} {missing : Unmapped}
    (h : c.missing? = some missing) : c.kind = .unmappedName := by
  cases c with
  | unmapped | unmappedInSignature => rfl
  | _ => cases h

@[simp] theorem Cause.missing?_inSignature (name : String) (c : Cause) :
    (c.inSignature name).missing? = c.missing? := by
  cases c <;> rfl

namespace Context

section Lack

variable (ctx : Context)

/-- If the failure is about an unmapped name, it reports a question to which the dialect has no
answer. -/
def ReportsLack (o : Diagnostic) : Prop :=
  o.kind = .unmappedName →
    ∃ l, o.cause.missing? = some ⟨ctx.dialect.name, l⟩ ∧ ctx.dialect.find? l = none

variable {ctx} {o : Diagnostic}

/-- A failure of another kind has nothing to report. -/
theorem reportsLack_singleton (h : o.kind ≠ .unmappedName) : ∀ o' ∈ [o], ctx.ReportsLack o' :=
  List.forall_mem_singleton.2 fun hkind => absurd hkind h

theorem reportsLack_missing (l : Lookup) (site : Node) :
    ∀ o ∈ ctx.missing l site, ctx.ReportsLack o := by
  unfold missing
  split
  · exact List.forall_mem_nil _
  · rename_i hnone
    exact List.forall_mem_singleton.2 fun _ => ⟨l, rfl, hnone⟩

theorem reportsLack_blankness (use : Use) (value site : Node) :
    ∀ o ∈ ctx.blankness use value site, ctx.ReportsLack o := by
  unfold blankness
  split
  · exact reportsLack_singleton (by rintro ⟨⟩)
  · exact List.forall_mem_nil _

/-- Every node reports the question that the dialect has no answer to. -/
theorem ownObstacles_reportsLack : ctx.OwnObstacles ctx.ReportsLack where
  callee loc callee listLoc args := by
    unfold calleeObstacles
    split
    · split
      · exact reportsLack_singleton (by rintro ⟨⟩)
      · exact reportsLack_missing _ _
    · exact reportsLack_singleton (by rintro ⟨⟩)
  type loc type listLoc args := by
    unfold typeObstacles
    split
    · exact reportsLack_singleton (by rintro ⟨⟩)
    · exact reportsLack_missing _ _
  argument loc value := reportsLack_blankness _ _ _
  expression n _ := by rintro ⟨⟩
  variableCount loc decl := by
    unfold countObstacle
    split
    · exact List.forall_mem_nil _
    · exact reportsLack_singleton (by rintro ⟨⟩)
  declaredType loc decl := reportsLack_missing _ _
  effect loc value := reportsLack_blankness _ _ _
  returnValue loc value := reportsLack_blankness _ _ _
  statement n _ _ _ := by rintro ⟨⟩

theorem reportsLack_signatureObstacle (m : Method) (t : TypeRef) :
    ∀ o ∈ ctx.signatureObstacle m t, ctx.ReportsLack o := by
  unfold signatureObstacle
  split
  · exact List.forall_mem_nil _
  · rename_i hnone
    exact List.forall_mem_singleton.2 fun _ => ⟨.type t.fullName, rfl, hnone⟩

/-- The place of a statement changes nothing but the place. -/
theorem ReportsLack.locate {file : Option String} {n : Node} (h : ctx.ReportsLack o) :
    ctx.ReportsLack (.locate file n o) := by
  unfold ReportsLack Diagnostic.kind at h ⊢
  rwa [Diagnostic.cause_locate]

theorem reportsLack_methodObstacles (d : Definition) :
    ∀ o ∈ ctx.methodObstacles d, ctx.ReportsLack o := by
  unfold methodObstacles
  rw [List.forall_mem_append, List.forall_mem_flatMap, List.forall_mem_flatMap]
  refine ⟨fun t _ => reportsLack_signatureObstacle d.method t, fun n _ => ?_⟩
  rw [List.forall_mem_map]
  intro o ho
  exact (ownObstacles_reportsLack.forall_mem n o ho).locate

/-- A failure about an unmapped name says which question the dialect has no answer to. -/
theorem exists_lack_of_emit {d : Definition} {e : Diagnostic}
    (h : (ctx.emit d).outcome = .error e) : ctx.ReportsLack e := by
  have hhead : (ctx.methodObstacles d).head? = some e := (meets_emit d).outcome_eq_error_iff.1 h
  exact reportsLack_methodObstacles d e (List.mem_of_head? hhead)

end Lack

/-- The context with an extended dialect. -/
def extend (ctx : Context) (x : Extension) : Context :=
  { ctx with dialect := ctx.dialect.extend x }

variable {ctx : Context} {x : Extension}

/-- Failures at questions that the extension answers. -/
def AnsweredBy (x : Extension) (c : Cause) : Prop :=
  ∃ missing, c.missing? = some missing ∧ (x.find? missing.lookup).isSome = true

theorem find_extend_eqUnless (h : x.Conserves ctx.dialect) (l : Lookup) (site : Node) :
    (ctx.find l site).EqUnless (AnsweredBy x ·.cause) ((ctx.extend x).find l site) := by
  cases hd : ctx.dialect.find? l with
  | some word =>
    -- the extension has no other word
    have hd' : (ctx.extend x).dialect.find? l = some word := Dialect.find?_extend_of_conserves h hd
    rw [find_of_some hd, find_of_some hd']
    exact .refl _ _
  | none =>
    cases hx : x.find? l with
    | none =>
      have hd' : (ctx.extend x).dialect.find? l = none := Dialect.find?_extend_eq_none.2 ⟨hx, hd⟩
      rw [find_of_none hd, find_of_none hd']
      exact .refl _ _
    | some word =>
      -- the extension alone has a word, so the failure is one of those that are set apart
      refine .inr ⟨.report ctx.file (.unmapped ⟨ctx.dialect.name, l⟩) site, ?_, _, rfl, ?_⟩
      · rw [find_of_none hd]
      · rw [hx]
        rfl

/-- A callee is resolved as before, and then its method is looked up. -/
theorem calledFunction_extend_eqUnless (h : x.Conserves ctx.dialect) (callee site : Node) :
    (ctx.calledFunction callee site).EqUnless (AnsweredBy x ·.cause)
      ((ctx.extend x).calledFunction callee site) := by
  have hmethod : (ctx.extend x).calledMethod callee site = ctx.calledMethod callee site := rfl
  rw [calledFunction, calledFunction, hmethod]
  cases ctx.calledMethod callee site with
  | error e => exact .refl _ _
  | ok key => exact find_extend_eqUnless h _ _

theorem constructor_extend_eqUnless (h : x.Conserves ctx.dialect) (type site : Node) :
    (ctx.constructor type site).EqUnless (AnsweredBy x ·.cause)
      ((ctx.extend x).constructor type site) := by
  have htype : (ctx.extend x).constructedType type site = ctx.constructedType type site := rfl
  rw [constructor, constructor, htype]
  cases ctx.constructedType type site with
  | error e => exact .refl _ _
  | ok name => exact find_extend_eqUnless h _ _

/-- What a node asks is answered alike in the extended dialect. -/
theorem answersAlike_extend (h : x.Conserves ctx.dialect) (n : Node) :
    AnswersAlike (AnsweredBy x) ctx (ctx.extend x) n := by
  cases n with
  | invocation loc callee listLoc args => exact calledFunction_extend_eqUnless h _ _
  | objectCreation loc type listLoc args => exact constructor_extend_eqUnless h _ _
  | localDeclaration loc decl => exact find_extend_eqUnless h _ _
  | _ => trivial

theorem answersAlikeIn_extend (h : x.Conserves ctx.dialect) (d : Definition) :
    AnswersAlikeIn (AnsweredBy x) ctx (ctx.extend x) d where
  file := rfl
  signature _ _ := find_extend_eqUnless h _ _
  body _ _ m _ := answersAlike_extend h m
  inSignature cause hcause := by
    unfold AnsweredBy at hcause ⊢
    rwa [Cause.missing?_inSignature]

/-- **Extending a dialect is conservative.** Where a lowering gives a source text, or fails for
another reason than an unmapped name, the same comes of it in the extended dialect, with the same
log; and where it fails about an unmapped name, the same comes of it unless the extension has an
answer to the question that had none. -/
theorem emit_extend (h : x.Conserves ctx.dialect) (d : Definition) :
    Settles .unmappedName ctx (ctx.extend x) d ∧
    ∀ e, (ctx.emit d).outcome = .error e → e.kind = .unmappedName →
      ∃ l, e.cause.missing? = some ⟨ctx.dialect.name, l⟩ ∧ ctx.dialect.find? l = none ∧
        ((ctx.dialect.extend x).find? l = none → (ctx.extend x).emit d = ctx.emit d) := by
  have hsame := emit_eqUnless (answersAlikeIn_extend h d)
  refine ⟨settles_of_eqUnless hsame ?_, fun e he hkind => ?_⟩
  · rintro cause ⟨missing, hmissing, -⟩
    exact Cause.kind_of_missing? hmissing
  · obtain ⟨l, hl, hnone⟩ := exists_lack_of_emit he hkind
    refine ⟨l, hl, hnone, fun habsent => (hsame.eq_of_error he ?_).symm⟩
    -- the question that was asked in vain is the only one that the extension could answer
    rintro ⟨missing, hmissing, hsome⟩
    obtain rfl := Option.some.inj (hl.symm.trans hmissing)
    rw [(Dialect.find?_extend_eq_none.1 habsent).1] at hsome
    cases hsome

/-- A declaration of a type that the extension lacks too fails as before, although the extension
repeats a type of the dialect and adds another one. -/
theorem absent_type_stays_absent :
    let x : Extension := ⟨some (.ofList [("int", "int"), ("float", "float")]), none⟩
    let declaration : Node := .localDeclaration ⟨some 2, some 4⟩
      ⟨.unknown, ⟨"Vector4", none⟩, [⟨.unknown, "v", none⟩]⟩
    let d : Definition := ⟨⟨"Foo", ⟨"float", none⟩, []⟩, .bare [declaration]⟩
    x.Conserves floatOnly.dialect ∧
      (floatOnly.emit d).outcome =
        .error (.report none (.unmapped ⟨"HLSL", .type "Vector4"⟩) declaration) ∧
      (floatOnly.extend x).emit d = floatOnly.emit d := by
  intro x declaration d
  have hx : x.Conserves floatOnly.dialect := by
    intro l word word' hd hx
    cases l with
    | type name =>
      have hmem := Table.mem_of_get?_ofList hd
      have hmem' := Table.mem_of_get?_ofList hx
      simp only [List.mem_cons, List.not_mem_nil, Prod.mk.injEq, or_false] at hmem hmem'
      obtain ⟨rfl, rfl⟩ := hmem
      rcases hmem' with ⟨h, -⟩ | ⟨-, rfl⟩
      · exact absurd h (by decide)
      · rfl
    | method key => cases hd
  have hfail : (floatOnly.emit d).outcome =
      .error (.report none (.unmapped ⟨"HLSL", .type "Vector4"⟩) declaration) := rfl
  obtain ⟨l, hl, -, hsame⟩ := (emit_extend hx d).2 _ hfail rfl
  obtain rfl : Lookup.type "Vector4" = l := by
    injection hl with hl
    injection hl
  have habsent : (floatOnly.dialect.extend x).find? (.type "Vector4") = none := by decide +kernel
  exact ⟨hx, hfail, hsame habsent⟩

end Context

end Shading
