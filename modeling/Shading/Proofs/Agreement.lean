import Shading.Proofs.Operand

/-!
# Two lowerings of one method

A lowering learns something from its context at three sorts of places only: where a type of a
signature or declaration has to be found, at calls, and at constructions. Where two contexts answer
alike what is asked there, the lowerings run alike. They may differ once the first of them fails in
a way that is set apart.

* `Traced.EqUnless`: two computations are the same, unless the first fails so.
* `Context.AnswersAlike`: two contexts answer alike what a node asks, its operands apart.
* `Context.emit_eqUnless`: **contexts that answer alike what the signature and the parts of the body
  ask give the same source text or failure, and the same log.**
* `Context.Settles`: the same, with one kind of failures set apart.
-/

namespace Shading

namespace Traced

variable {ε ε' α β : Type}

/-- `x` and `y` are the same, unless `x` fails with an error that is `P`. -/
def EqUnless (P : ε → Prop) (x y : Traced ε α) : Prop :=
  x = y ∨ ∃ e, x.outcome = .error e ∧ P e

namespace EqUnless

variable {P : ε → Prop} {x y : Traced ε α}

theorem refl (P : ε → Prop) (x : Traced ε α) : x.EqUnless P x :=
  .inl rfl

theorem eq_of_ok (h : x.EqUnless P y) {a : α} (hx : x.outcome = .ok a) : x = y := by
  rcases h with h | ⟨e, he, -⟩
  · exact h
  · rw [hx] at he
    cases he

theorem eq_of_error (h : x.EqUnless P y) {e : ε} (hx : x.outcome = .error e) (he : ¬ P e) :
    x = y := by
  rcases h with h | ⟨e', he', hP⟩
  · exact h
  · obtain rfl : e = e' := Except.error.inj (hx.symm.trans he')
    exact absurd hP he

/-- Without failures that are set apart the two are the same. -/
theorem eq_of_never (h : x.EqUnless P y) (hP : ∀ e, ¬ P e) : x = y := by
  rcases h with h | ⟨e, -, he⟩
  · exact h
  · exact absurd he (hP e)

/-- What goes on alike after what ran alike runs alike as a whole. -/
theorem bind {f g : α → Traced ε β} (h : x.EqUnless P y) (hf : ∀ a, (f a).EqUnless P (g a)) :
    (x >>= f).EqUnless P (y >>= g) := by
  rcases h with rfl | ⟨e, he, hP⟩
  · -- what follows is compared on what both have given
    cases hx : x.outcome with
    | error e =>
      rw [bind_of_error hx, bind_of_error hx]
      exact refl P _
    | ok a =>
      rw [bind_of_ok hx, bind_of_ok hx]
      rcases hf a with h | ⟨e, he, hP⟩
      · rw [h]
        exact refl P _
      · exact .inr ⟨e, he, hP⟩
  · rw [bind_of_error he]
    exact .inr ⟨e, rfl, hP⟩

theorem mapError {P' : ε' → Prop} {f : ε → ε'} (h : x.EqUnless P y)
    (hf : ∀ e, P e → P' (f e)) : (x.mapError f).EqUnless P' (y.mapError f) := by
  rcases h with rfl | ⟨e, he, hP⟩
  · exact refl P' _
  · refine .inr ⟨f e, ?_, hf e hP⟩
    rw [Traced.mapError, he]
    rfl

/-- Work that runs alike on each item of a list runs alike on the list. -/
theorem mapM {f g : β → Traced ε α} {bs : List β} (h : ∀ b ∈ bs, (f b).EqUnless P (g b)) :
    (bs.mapM f).EqUnless P (bs.mapM g) := by
  induction bs with
  | nil => exact refl P _
  | cons b bs ih =>
    rw [List.mapM_cons, List.mapM_cons]
    have htail := ih fun b' hb' => h b' (List.mem_cons_of_mem b hb')
    refine (h b List.mem_cons_self).bind fun a => ?_
    exact htail.bind fun as => refl P _

end EqUnless

end Traced

namespace Cause

@[simp] theorem kind_inSignature (name : String) (c : Cause) :
    (c.inSignature name).kind = c.kind := by
  cases c <;> rfl

end Cause

namespace Context

variable (P : Cause → Prop) (ctx ctx' : Context)

/-- The two contexts answer alike what `n` asks, its operands apart, unless the first has no answer
and the reason is `P`. -/
def AnswersAlike : Node → Prop
  | .invocation loc callee listLoc args =>
    (ctx.calledFunction callee (.invocation loc callee listLoc args)).EqUnless (P ·.cause)
      (ctx'.calledFunction callee (.invocation loc callee listLoc args))
  | .objectCreation loc type listLoc args =>
    (ctx.constructor type (.objectCreation loc type listLoc args)).EqUnless (P ·.cause)
      (ctx'.constructor type (.objectCreation loc type listLoc args))
  | .localDeclaration loc decl =>
    (ctx.find (.type decl.type.fullName) (.localDeclaration loc decl)).EqUnless (P ·.cause)
      (ctx'.find (.type decl.type.fullName) (.localDeclaration loc decl))
  | _ => True

/-- The two contexts have one file, and they answer alike what a lowering of `d` asks: the types of
the signature and what stands anywhere in the body. A failure that is set apart stays so when it is
found in a signature. -/
structure AnswersAlikeIn (d : Definition) : Prop where
  file : ctx'.file = ctx.file
  signature : ∀ t ∈ d.method.signatureTypes,
    (ctx.find (.type t.fullName) .absent).EqUnless (P ·.cause) (ctx'.find (.type t.fullName) .absent)
  body : ∀ n ∈ d.body.statements, ∀ m, m.Part n → AnswersAlike P ctx ctx' m
  inSignature : ∀ cause, P cause → P (cause.inSignature d.method.name)

variable {P ctx ctx'} {n : Node}

theorem reject_eqUnless {α : Type} (hfile : ctx'.file = ctx.file) (cause : Cause) (site : Node) :
    (ctx.reject cause site : Traced Diagnostic α).EqUnless (P ·.cause) (ctx'.reject cause site) := by
  rw [reject, reject, hfile]
  exact .refl _ _

theorem nonBlank_eqUnless (hfile : ctx'.file = ctx.file) (use : Use) (value site : Node)
    (e : Target.Expr) :
    (ctx.nonBlank use value site e).EqUnless (P ·.cause) (ctx'.nonBlank use value site e) := by
  unfold nonBlank
  split
  · exact reject_eqUnless hfile _ _
  · exact .refl _ _

/-- What holds of all parts of `n` holds of all parts of its operands. -/
theorem forall_part_of_operand {Q : Node → Prop} {k : Node} {place : Place}
    (h : ∀ m, m.Part n → Q m) (hk : (place, k) ∈ n.operands) : ∀ m, m.Part k → Q m :=
  fun m hm => h m (.operand hk hm)

/-- The arguments that stand in `n` run alike if each of them does once its parts are answered
alike. -/
theorem lowerArguments_eqUnless (hfile : ctx'.file = ctx.file) {args : List Argument}
    (hn : n.operands = args.map fun a => (Place.argument, a.value))
    (h : ∀ m, m.Part n → AnswersAlike P ctx ctx' m)
    (ih : ∀ a ∈ args, (∀ m, m.Part (Argument.value a) → AnswersAlike P ctx ctx' m) →
      (ctx.lowerExpr a.value).EqUnless (P ·.cause) (ctx'.lowerExpr a.value)) :
    (ctx.lowerArguments args).EqUnless (P ·.cause) (ctx'.lowerArguments args) := by
  rw [lowerArguments_eq_mapM, lowerArguments_eq_mapM]
  refine Traced.EqUnless.mapM fun a ha => ?_
  have hmem : (Place.argument, a.value) ∈ n.operands := by
    rw [hn]
    exact List.mem_map_of_mem ha
  have hvalue := ih a ha (forall_part_of_operand h hmem)
  obtain ⟨loc, value⟩ := a
  exact hvalue.bind fun e => nonBlank_eqUnless hfile _ _ _ e

/-- **Expressions run alike in contexts that answer alike what their parts ask.** -/
theorem lowerExpr_eqUnless (hfile : ctx'.file = ctx.file)
    (h : ∀ m, m.Part n → AnswersAlike P ctx ctx' m) :
    (ctx.lowerExpr n).EqUnless (P ·.cause) (ctx'.lowerExpr n) := by
  -- on the way down the parts of an operand are parts of the whole; what the whole itself asks is
  -- answered alike because it is a part too
  induction n using Node.expression_induction with
  | name loc id => exact .refl _ _
  | literal loc token => exact .refl _ _
  | memberAccess loc target member operator ih =>
    have htarget := ih (forall_part_of_operand h (List.mem_singleton_self _))
    exact htarget.bind fun t => .refl _ _
  | assignment loc left operator right ihl ihr =>
    have hleft := ihl (forall_part_of_operand h (List.mem_cons_self ..))
    have hright := ihr (forall_part_of_operand h (List.mem_cons_of_mem _ (List.mem_cons_self ..)))
    exact hleft.bind fun l => hright.bind fun r => .refl _ _
  | argument loc value ih =>
    have hvalue := ih (forall_part_of_operand h (List.mem_singleton_self _))
    exact hvalue.bind fun e => nonBlank_eqUnless hfile _ _ _ e
  | argumentList loc args ih =>
    have hargs := lowerArguments_eqUnless hfile rfl h ih
    exact hargs.bind fun es => .refl _ _
  | initializer loc value ih =>
    have hvalue := ih (forall_part_of_operand h (List.mem_singleton_self _))
    exact hvalue.bind fun v => .refl _ _
  | invocation loc callee listLoc args ih =>
    have hcallee := h _ .whole
    have hargs := lowerArguments_eqUnless hfile rfl h ih
    exact Traced.EqUnless.bind hcallee fun f => hargs.bind fun es => .refl _ _
  | objectCreation loc type listLoc args ih =>
    have htype := h _ .whole
    have hargs := lowerArguments_eqUnless hfile rfl h ih
    exact Traced.EqUnless.bind htype fun f => hargs.bind fun es => .refl _ _
  | other n hn =>
    rw [lowerExpr_of_not_isExpressible hn, lowerExpr_of_not_isExpressible hn]
    exact reject_eqUnless hfile _ _

theorem lowerValue_eqUnless (hfile : ctx'.file = ctx.file) (use : Use) {value : Node}
    (site : Node) (h : ∀ m, m.Part value → AnswersAlike P ctx ctx' m) :
    (ctx.lowerValue use value site).EqUnless (P ·.cause) (ctx'.lowerValue use value site) :=
  (lowerExpr_eqUnless hfile h).bind fun e => nonBlank_eqUnless hfile _ _ _ e

theorem lowerDeclaration_eqUnless (hfile : ctx'.file = ctx.file) {loc : Location}
    {decl : Declaration}
    (h : ∀ m, m.Part (.localDeclaration loc decl) → AnswersAlike P ctx ctx' m) :
    (ctx.lowerDeclaration decl (.localDeclaration loc decl)).EqUnless (P ·.cause)
      (ctx'.lowerDeclaration decl (.localDeclaration loc decl)) := by
  obtain ⟨declLoc, type, declarators⟩ := decl
  -- the type is asked about only if there is one variable
  rcases declarators with _ | ⟨⟨varLoc, x, init⟩, _ | ⟨v, vs⟩⟩
  · exact reject_eqUnless hfile _ _
  · have htype := h _ .whole
    refine Traced.EqUnless.bind htype fun token => ?_
    rcases init with _ | ⟨initLoc, value⟩
    · exact .refl _ _
    · have hvalue : (ctx.lowerExpr value).EqUnless (P ·.cause) (ctx'.lowerExpr value) :=
        lowerExpr_eqUnless hfile (forall_part_of_operand h (List.mem_singleton_self _))
      exact (hvalue.bind fun e => .refl _ _).bind fun value => .refl _ _
  · exact reject_eqUnless hfile _ _

theorem lowerUnlocated_eqUnless (hfile : ctx'.file = ctx.file)
    (h : ∀ m, m.Part n → AnswersAlike P ctx ctx' m) :
    (ctx.lowerUnlocated n).EqUnless (P ·.cause) (ctx'.lowerUnlocated n) := by
  cases n with
  | localDeclaration loc decl => exact lowerDeclaration_eqUnless hfile h
  | expressionStatement loc value =>
    have hvalue := forall_part_of_operand h (List.mem_singleton_self _)
    exact (lowerValue_eqUnless hfile _ _ hvalue).bind fun e => .refl _ _
  | returnStatement loc value =>
    by_cases hnone : value = .absent
    · subst hnone
      exact .refl _ _
    · have hvalue : ∀ m, m.Part value → AnswersAlike P ctx ctx' m := by
        have hmem : (Place.returned, value) ∈ (Node.returnStatement loc value).operands := by
          rw [Node.operands_returnStatement hnone]
          exact List.mem_singleton_self _
        exact forall_part_of_operand h hmem
      rw [lowerUnlocated, lowerUnlocated]
      · exact (lowerValue_eqUnless hfile _ _ hvalue).bind fun e => .refl _ _
      all_goals exact hnone
  | _ => exact reject_eqUnless hfile _ _

theorem lowerStatement_eqUnless (hfile : ctx'.file = ctx.file)
    (h : ∀ m, m.Part n → AnswersAlike P ctx ctx' m) :
    (ctx.lowerStatement n).EqUnless (P ·.cause) (ctx'.lowerStatement n) := by
  rw [lowerStatement, lowerStatement, hfile]
  refine (lowerUnlocated_eqUnless hfile h).mapError fun e he => ?_
  rw [Diagnostic.cause_locate]
  exact he

theorem lowerSignature_eqUnless {m : Method} (hfile : ctx'.file = ctx.file)
    (hname : ∀ cause, P cause → P (cause.inSignature m.name))
    (h : ∀ t ∈ m.signatureTypes, (ctx.find (.type t.fullName) .absent).EqUnless (P ·.cause)
      (ctx'.find (.type t.fullName) .absent)) :
    (ctx.lowerSignature m).EqUnless (P ·.cause) (ctx'.lowerSignature m) := by
  have hparameter : ∀ p ∈ m.parameters,
      (ctx.lowerParameter p).EqUnless (P ·.cause) (ctx'.lowerParameter p) := by
    intro p hp
    have htype := h p.type (List.mem_cons_of_mem _ (List.mem_map_of_mem hp))
    exact htype.bind fun token => .refl _ _
  have hreturn := h m.returnType (List.mem_cons_self ..)
  rw [lowerSignature, lowerSignature, hfile]
  refine Traced.EqUnless.mapError ?_ fun e he => hname e.cause he
  exact hreturn.bind fun token => (Traced.EqUnless.mapM hparameter).bind fun ps => .refl _ _

/-- **Contexts that answer alike what a method asks give the same source text or failure, and the
same log**, unless the first fails for a reason that is set apart. -/
theorem emit_eqUnless {d : Definition} (h : AnswersAlikeIn P ctx ctx' d) :
    (ctx.emit d).EqUnless (P ·.cause) (ctx'.emit d) := by
  have hsignature := lowerSignature_eqUnless h.file h.inSignature h.signature
  have hbody : (ctx.lowerBody d.body.statements).EqUnless (P ·.cause)
      (ctx'.lowerBody d.body.statements) :=
    Traced.EqUnless.mapM fun n hn => lowerStatement_eqUnless h.file (h.body n hn)
  have hfunction : (ctx.lowerFunction d).EqUnless (P ·.cause) (ctx'.lowerFunction d) :=
    (Traced.EqUnless.refl _ _).bind fun _ => hsignature.bind fun _ => hbody.bind fun _ =>
      .refl _ _
  exact hfunction.bind fun f => .refl _ _

/-- Whatever comes of `d` in the first context comes of it in the second too, with the same log,
failures of one kind apart. -/
def Settles (kind : FailureKind) (ctx ctx' : Context) (d : Definition) : Prop :=
  (∀ e, (ctx.emit d).outcome = .error e → e.kind ≠ kind) → ctx'.emit d = ctx.emit d

theorem settles_of_eqUnless {kind : FailureKind} {d : Definition}
    (h : (ctx.emit d).EqUnless (P ·.cause) (ctx'.emit d)) (hP : ∀ cause, P cause → cause.kind = kind) :
    Settles kind ctx ctx' d := by
  intro hkind
  cases hd : (ctx.emit d).outcome with
  | ok text => exact (h.eq_of_ok hd).symm
  | error e => exact (h.eq_of_error hd fun he => hkind e hd (hP _ he)).symm

end Context

end Shading
