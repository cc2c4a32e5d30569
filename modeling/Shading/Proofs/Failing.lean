import Shading.Proofs.Lowering

/-!
# What a failed lowering leaves

While it succeeds, a lowering records nothing but the start and the end of a method. When it fails,
the diagnostic names the file that is current, and the log has one record more if the failure is a
look-up, and none if it is not.

* `Traced.QuietUnless`: nothing is recorded, unless there is a failure.
* `Context.Leaves`: the failures of statements and expressions, each with what it leaves in the log.
* `Context.LeavesInSignature`: the same for signatures.
* `Context.quietUnless_lowerBody`, `Context.quietUnless_lowerSignature`: **these are all failures
  there are.**
-/

namespace Shading

namespace Traced

variable {ε ε' α β : Type}

/-- `x` records nothing if it succeeds. If it fails, `Q` holds of the error and of what is
recorded. -/
def QuietUnless (Q : ε → List Record → Prop) (x : Traced ε α) : Prop :=
  match x.outcome with
  | .ok _ => x.log = []
  | .error e => Q e x.log

variable {Q : ε → List Record → Prop} {x : Traced ε α}

theorem quietUnless_pure (a : α) : (pure a : Traced ε α).QuietUnless Q :=
  rfl

theorem quietUnless_fail {e : ε} (h : Q e []) : (fail e : Traced ε α).QuietUnless Q :=
  h

theorem QuietUnless.log_of_ok (h : x.QuietUnless Q) {a : α} (hx : x.outcome = .ok a) :
    x.log = [] := by
  rwa [QuietUnless, hx] at h

theorem QuietUnless.of_error (h : x.QuietUnless Q) {e : ε} (hx : x.outcome = .error e) :
    Q e x.log := by
  rwa [QuietUnless, hx] at h

theorem QuietUnless.mono {Q' : ε → List Record → Prop} (h : x.QuietUnless Q)
    (hQ : ∀ e log, Q e log → Q' e log) : x.QuietUnless Q' := by
  unfold QuietUnless at h ⊢
  split at h
  · exact h
  · exact hQ _ _ h

/-- Two quiet steps in turn are quiet. The second is taken only if the first succeeds. -/
theorem QuietUnless.bind {f : α → Traced ε β} (hx : x.QuietUnless Q)
    (hf : ∀ a, x.outcome = .ok a → (f a).QuietUnless Q) : (x >>= f).QuietUnless Q := by
  cases h : x.outcome with
  | error e =>
    rw [bind_of_error h]
    exact hx.of_error h
  | ok a =>
    have hlog : x.log = [] := hx.log_of_ok h
    have hfa := hf a h
    rw [bind_of_ok h, hlog]
    exact hfa

theorem QuietUnless.mapError {Q' : ε' → List Record → Prop} {f : ε → ε'} (h : x.QuietUnless Q)
    (hQ : ∀ e log, Q e log → Q' (f e) log) : (x.mapError f).QuietUnless Q' := by
  cases hx : x.outcome with
  | error e =>
    have hlog := hQ e _ (h.of_error hx)
    unfold QuietUnless Traced.mapError
    rw [hx]
    exact hlog
  | ok a =>
    unfold QuietUnless Traced.mapError
    rw [hx]
    exact h.log_of_ok hx

/-- Work on the items of a list is quiet if it is so on each item behind items on which it
succeeds. -/
theorem quietUnless_mapM {f : α → Traced ε β} {as : List α}
    (h : ∀ before a after, as = before ++ a :: after →
      (∀ b ∈ before, ∃ c, (f b).outcome = .ok c) → (f a).QuietUnless Q) :
    (as.mapM f).QuietUnless Q := by
  induction as with
  | nil => exact quietUnless_pure _
  | cons a as ih =>
    rw [List.mapM_cons]
    refine (h [] a as rfl (List.forall_mem_nil _)).bind ?_
    intro b hb
    refine QuietUnless.bind (ih ?_) fun bs _ => quietUnless_pure _
    intro before a' after hsplit hbefore
    refine h (a :: before) a' after (by rw [hsplit, List.cons_append]) ?_
    exact List.forall_mem_cons.2 ⟨⟨b, hb⟩, hbefore⟩

end Traced

namespace Context

variable (ctx : Context)

/-- How an expression or a statement can fail, and with which records. -/
inductive Leaves : Diagnostic → List Record → Prop where
  /-- A look-up fails, and says so at once. -/
  | lookup {l : Lookup} (site : Node) :
    ctx.dialect.find? l = none →
    Leaves (.report ctx.file (.unmapped ⟨ctx.dialect.name, l⟩) site)
      [.lookupFailed ⟨ctx.dialect.name, l⟩]
  /-- Any other failure is without a record. -/
  | other {cause : Cause} (site : Node) :
    cause.kind ≠ .unmappedName → Leaves (.report ctx.file cause site) []

/-- How the signature of `m` can fail, and with which records. -/
inductive LeavesInSignature (m : Method) : Diagnostic → List Record → Prop where
  | lookup {t : TypeRef} :
    t ∈ m.signatureTypes → ctx.dialect.find? (.type t.fullName) = none →
    LeavesInSignature m
      (.report ctx.file (.unmappedInSignature ⟨ctx.dialect.name, .type t.fullName⟩ m.name) .absent)
      [.lookupFailed ⟨ctx.dialect.name, .type t.fullName⟩]

variable {ctx}

/-- Every failure is reported under the file that is current. -/
theorem Leaves.file_eq {e : Diagnostic} {log : List Record} (h : ctx.Leaves e log) :
    e.file = fileSetting ctx.file := by
  cases h with
  | lookup | other => rfl

theorem LeavesInSignature.file_eq {m : Method} {e : Diagnostic} {log : List Record}
    (h : ctx.LeavesInSignature m e log) : e.file = fileSetting ctx.file := by
  cases h with
  | lookup => rfl

/-- A failure that takes the place of a statement leaves the same records. -/
theorem Leaves.locate {e : Diagnostic} {log : List Record} (h : ctx.Leaves e log) (n : Node) :
    ctx.Leaves (.locate ctx.file n e) log := by
  unfold Diagnostic.locate
  split
  · cases h with
    | lookup _ hl => exact .lookup n hl
    | other _ hcause => exact .other n hcause
  · exact h

theorem quietUnless_find (l : Lookup) (site : Node) :
    (ctx.find l site).QuietUnless fun e log => ctx.dialect.find? l = none ∧
      e = .report ctx.file (.unmapped ⟨ctx.dialect.name, l⟩) site ∧
      log = [.lookupFailed ⟨ctx.dialect.name, l⟩] := by
  cases h : ctx.dialect.find? l with
  | none =>
    rw [find_of_none h]
    exact ⟨rfl, rfl, rfl⟩
  | some word =>
    rw [find_of_some h]
    exact Traced.quietUnless_pure _

theorem find_quietUnless_leaves (l : Lookup) (site : Node) :
    (ctx.find l site).QuietUnless ctx.Leaves := by
  refine (quietUnless_find l site).mono ?_
  rintro e log ⟨hl, rfl, rfl⟩
  exact .lookup site hl

theorem quietUnless_reject {α : Type} {cause : Cause} (h : cause.kind ≠ .unmappedName)
    (site : Node) : (ctx.reject cause site : Traced Diagnostic α).QuietUnless ctx.Leaves :=
  Traced.quietUnless_fail (.other site h)

theorem quietUnless_nonBlank (use : Use) (value site : Node) (e : Target.Expr) :
    (ctx.nonBlank use value site e).QuietUnless ctx.Leaves := by
  unfold nonBlank
  split
  · exact quietUnless_reject (by rintro ⟨⟩) site
  · exact Traced.quietUnless_pure _

/-- Whom a call goes to is found out without a record; its function is looked up. -/
theorem quietUnless_calledFunction (callee site : Node) :
    (ctx.calledFunction callee site).QuietUnless ctx.Leaves := by
  unfold calledFunction calledMethod
  cases callee.ident? with
  | none => exact quietUnless_reject (by rintro ⟨⟩) site
  | some id =>
    simp only
    cases (ctx.resolve callee).bind Symbol.methodKey? with
    | none => exact quietUnless_reject (by rintro ⟨⟩) site
    | some key => exact find_quietUnless_leaves _ site

theorem quietUnless_constructor (type site : Node) :
    (ctx.constructor type site).QuietUnless ctx.Leaves := by
  unfold constructor constructedType
  cases (ctx.resolve type).bind Symbol.typeName? with
  | none => exact quietUnless_reject (by rintro ⟨⟩) site
  | some name => exact find_quietUnless_leaves _ site

theorem quietUnless_lowerArguments {args : List Argument}
    (ih : ∀ a ∈ args, (ctx.lowerExpr (Argument.value a)).QuietUnless ctx.Leaves) :
    (ctx.lowerArguments args).QuietUnless ctx.Leaves := by
  rw [lowerArguments_eq_mapM]
  refine Traced.quietUnless_mapM ?_
  rintro before ⟨loc, value⟩ after hsplit -
  have hvalue := ih ⟨loc, value⟩ (by rw [hsplit]; exact List.mem_append_cons_self)
  exact hvalue.bind fun e _ => quietUnless_nonBlank _ _ _ e

/-- **An expression leaves a record exactly of the look-up at which it fails.** -/
theorem quietUnless_lowerExpr (n : Node) : (ctx.lowerExpr n).QuietUnless ctx.Leaves := by
  induction n using Node.expression_induction with
  | name loc id => exact Traced.quietUnless_pure _
  | literal loc token => exact Traced.quietUnless_pure _
  | memberAccess loc target member operator ih =>
    exact ih.bind fun t _ => Traced.quietUnless_pure _
  | assignment loc left operator right ihl ihr =>
    exact ihl.bind fun l _ => ihr.bind fun r _ => Traced.quietUnless_pure _
  | argument loc value ih => exact ih.bind fun e _ => quietUnless_nonBlank _ _ _ e
  | argumentList loc args ih =>
    exact (quietUnless_lowerArguments ih).bind fun es _ => Traced.quietUnless_pure _
  | initializer loc value ih => exact ih.bind fun v _ => Traced.quietUnless_pure _
  | invocation loc callee listLoc args ih =>
    refine (quietUnless_calledFunction callee _).bind fun f _ => ?_
    exact (quietUnless_lowerArguments ih).bind fun es _ => Traced.quietUnless_pure _
  | objectCreation loc type listLoc args ih =>
    refine (quietUnless_constructor type _).bind fun f _ => ?_
    exact (quietUnless_lowerArguments ih).bind fun es _ => Traced.quietUnless_pure _
  | other n hn =>
    rw [lowerExpr_of_not_isExpressible hn]
    exact quietUnless_reject (by rintro ⟨⟩) n

theorem quietUnless_lowerValue (use : Use) (value site : Node) :
    (ctx.lowerValue use value site).QuietUnless ctx.Leaves :=
  (quietUnless_lowerExpr value).bind fun e _ => quietUnless_nonBlank _ _ _ e

theorem quietUnless_lowerDeclaration (decl : Declaration) (site : Node) :
    (ctx.lowerDeclaration decl site).QuietUnless ctx.Leaves := by
  obtain ⟨declLoc, type, declarators⟩ := decl
  rcases declarators with _ | ⟨⟨varLoc, x, init⟩, _ | ⟨v, vs⟩⟩
  · exact quietUnless_reject (by rintro ⟨⟩) site
  · refine (find_quietUnless_leaves _ site).bind fun token _ => ?_
    rcases init with _ | ⟨initLoc, value⟩
    · exact Traced.quietUnless_pure _
    · have hvalue : (ctx.lowerExpr value).QuietUnless ctx.Leaves := quietUnless_lowerExpr value
      refine Traced.QuietUnless.bind ?_ fun e _ => Traced.quietUnless_pure _
      exact hvalue.bind fun e _ => Traced.quietUnless_pure _
  · exact quietUnless_reject (by rintro ⟨⟩) site

theorem quietUnless_lowerUnlocated (n : Node) :
    (ctx.lowerUnlocated n).QuietUnless ctx.Leaves := by
  unfold lowerUnlocated
  split
  · exact quietUnless_lowerDeclaration _ _
  · exact (quietUnless_lowerValue _ _ _).bind fun e _ => Traced.quietUnless_pure _
  · exact Traced.quietUnless_pure _
  · exact (quietUnless_lowerValue _ _ _).bind fun e _ => Traced.quietUnless_pure _
  · exact quietUnless_reject (by rintro ⟨⟩) _

theorem quietUnless_lowerStatement (n : Node) :
    (ctx.lowerStatement n).QuietUnless ctx.Leaves :=
  (quietUnless_lowerUnlocated n).mapError fun _ _ h => h.locate n

/-- **A body leaves a record exactly of the look-up at which it fails.** -/
theorem quietUnless_lowerBody (ns : List Node) : (ctx.lowerBody ns).QuietUnless ctx.Leaves :=
  Traced.quietUnless_mapM fun _ n _ _ _ => quietUnless_lowerStatement n

/-- **A signature fails at a look-up only, and leaves the record of it.** -/
theorem quietUnless_lowerSignature (m : Method) :
    (ctx.lowerSignature m).QuietUnless (ctx.LeavesInSignature m) := by
  -- what is known of a look-up before it is reported as one of the signature
  have hfind : ∀ t ∈ m.signatureTypes, (ctx.find (.type t.fullName) .absent).QuietUnless
      fun e log => ctx.LeavesInSignature m
        (.report ctx.file (e.cause.inSignature m.name) .absent) log := by
    intro t ht
    refine (quietUnless_find _ _).mono ?_
    rintro e log ⟨hl, rfl, rfl⟩
    exact .lookup ht hl
  have hreturn := hfind m.returnType List.mem_cons_self
  have hparameters : (ctx.lowerParameters m.parameters).QuietUnless
      fun e log => ctx.LeavesInSignature m
        (.report ctx.file (e.cause.inSignature m.name) .absent) log := by
    refine Traced.quietUnless_mapM ?_
    rintro before p after hsplit -
    have hp : p.type ∈ m.signatureTypes := by
      refine List.mem_cons_of_mem _ (List.mem_map_of_mem ?_)
      rw [hsplit]
      exact List.mem_append_cons_self
    exact (hfind p.type hp).bind fun token _ => Traced.quietUnless_pure _
  refine Traced.QuietUnless.mapError ?_ fun e log h => h
  exact hreturn.bind fun token _ => hparameters.bind fun ps _ => Traced.quietUnless_pure _

end Context

end Shading
