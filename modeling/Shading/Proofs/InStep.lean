import Shading.Proofs.Lowering

/-!
# Work in step

Two trees may be lowered in step although they differ: what is given on the way is written alike, a
failure of one is a failure of the other at a node that looks the same from outside, and the same is
recorded.

* `Diagnostic.outline`: what a failure tells, of its node the kind and the location only.
* `Diagnostic.SameReport`: two failures with one outline are reported alike.
* `Traced.InStep`: two computations succeed with related values or fail with one outline, and leave
  one log. `InStep.bind`, `InStep.mapM`: so do steps that are taken one after the other.
* `Expr.SameText`, `Statement.SameText`: two trees of the shading language are written alike.
* `Context.find_inStep`, `Context.calledFunction_inStep`, `Context.constructor_inStep`: so do the
  questions put to the dialect and the resolver, asked for nodes that look the same.
-/

namespace Shading

/-- What can be seen of a node from outside. -/
def Node.outline (n : Node) : Kind × Location :=
  (n.kind, n.loc)

namespace Diagnostic

/-- What a failure tells, whatever stands in its node. -/
def outline (e : Diagnostic) : Cause × (Kind × Location) × Option String :=
  (e.cause, e.node.outline, e.file)

/-- Everything that is shown of `e'` is shown of `e`. -/
structure SameReport (e e' : Diagnostic) : Prop where
  kind : e'.kind = e.kind
  text : e'.text = e.text
  message : e'.message = e.message
  line : e'.line = e.line
  column : e'.column = e.column
  file : e'.file = e.file
  nodeKind? : e'.nodeKind? = e.nodeKind?

theorem nodeKind?_eq (e : Diagnostic) :
    e.nodeKind? = if e.node.kind = .absent then none else some e.node.kind := by
  unfold nodeKind?
  split
  · rename_i h
    rw [h]
    rfl
  · rename_i h
    rw [if_neg (mt Node.kind_eq_absent.1 h)]

/-- Failures with one outline are reported alike. -/
theorem sameReport_of_outline {e e' : Diagnostic} (h : e.outline = e'.outline) :
    e.SameReport e' := by
  obtain ⟨hcause, hnode, hfile⟩ : e.cause = e'.cause ∧ e.node.outline = e'.node.outline ∧
      e.file = e'.file := by
    simpa [outline] using h
  obtain ⟨hkind, hloc⟩ : e.node.kind = e'.node.kind ∧ e.node.loc = e'.node.loc := by
    simpa [Node.outline] using hnode
  refine ⟨?_, ?_, ?_, ?_, ?_, hfile.symm, ?_⟩
  · rw [kind, kind, hcause]
  · rw [text, text, hcause]
  · rw [message, message, text, text, fileText, fileText, hcause, hloc, hfile]
  · rw [line, line, hloc]
  · rw [column, column, hloc]
  · rw [nodeKind?_eq, nodeKind?_eq, hkind]

/-- Whether a failure takes the place of its statement is told from outlines. -/
theorem outline_locate {e e' : Diagnostic} {n n' : Node} (h : e.outline = e'.outline)
    (hn : n.outline = n'.outline) (file : Option String) :
    (e.locate file n).outline = (e'.locate file n').outline := by
  have hline : e.line = e'.line := (sameReport_of_outline h).line.symm
  have hloc : n.loc = n'.loc := congrArg Prod.snd hn
  have hcause : e.cause = e'.cause := congrArg Prod.fst h
  unfold locate
  rw [hline, hloc]
  split
  · simp [outline, reattach, report, hcause, hn]
  · exact h

end Diagnostic

namespace Traced

variable {α α' β β' γ δ : Type}

/-- Two computations succeed with values that are `R`, or fail with one outline; and they record the
same. -/
structure InStep (R : α → β → Prop) (x : Traced Diagnostic α) (y : Traced Diagnostic β) :
    Prop where
  outcome : (∃ a b, x.outcome = .ok a ∧ y.outcome = .ok b ∧ R a b) ∨
    ∃ e e', x.outcome = .error e ∧ y.outcome = .error e' ∧ e.outline = e'.outline
  log : x.log = y.log

namespace InStep

variable {R : α → β → Prop} {S : γ → δ → Prop} {x : Traced Diagnostic α} {y : Traced Diagnostic β}

theorem pure {a : α} {b : β} (h : R a b) :
    (Pure.pure a : Traced Diagnostic α).InStep R (Pure.pure b) :=
  ⟨.inl ⟨a, b, rfl, rfl, h⟩, rfl⟩

theorem fail {e e' : Diagnostic} (h : e.outline = e'.outline) :
    (Traced.fail e : Traced Diagnostic α).InStep R (Traced.fail e' : Traced Diagnostic β) :=
  ⟨.inr ⟨e, e', rfl, rfl, h⟩, rfl⟩

theorem refl {R : α → α → Prop} (hR : ∀ a, R a a) (x : Traced Diagnostic α) : x.InStep R x := by
  refine ⟨?_, rfl⟩
  cases h : x.outcome with
  | ok a => exact .inl ⟨a, a, rfl, rfl, hR a⟩
  | error e => exact .inr ⟨e, e, rfl, rfl, rfl⟩

theorem trans {R : α → α → Prop} (hR : ∀ a b c, R a b → R b c → R a c)
    {x y z : Traced Diagnostic α} (hxy : x.InStep R y) (hyz : y.InStep R z) : x.InStep R z := by
  refine ⟨?_, hxy.log.trans hyz.log⟩
  rcases hxy.outcome with ⟨a, b, hx, hy, hab⟩ | ⟨e, e', hx, hy, he⟩
  · rcases hyz.outcome with ⟨b', c, hy', hz, hbc⟩ | ⟨e, e', hy', hz, he⟩
    · obtain rfl := Except.ok.inj (hy.symm.trans hy')
      exact .inl ⟨a, c, hx, hz, hR _ _ _ hab hbc⟩
    · cases hy.symm.trans hy'
  · rcases hyz.outcome with ⟨b', c, hy', hz, hbc⟩ | ⟨e'', e''', hy', hz, he'⟩
    · cases hy.symm.trans hy'
    · obtain rfl := Except.error.inj (hy.symm.trans hy')
      exact .inr ⟨e, e''', hx, hz, he.trans he'⟩

/-- Work that goes on in step after work in step is in step as a whole. -/
theorem bind {f : α → Traced Diagnostic γ} {g : β → Traced Diagnostic δ} (h : x.InStep R y)
    (hf : ∀ a b, x.outcome = .ok a → R a b → (f a).InStep S (g b)) :
    (x >>= f).InStep S (y >>= g) := by
  rcases h.outcome with ⟨a, b, hx, hy, hab⟩ | ⟨e, e', hx, hy, he⟩
  · have hnext := hf a b hx hab
    rw [bind_of_ok hx, bind_of_ok hy, h.log]
    exact ⟨hnext.outcome, congrArg (y.log ++ ·) hnext.log⟩
  · rw [bind_of_error hx, bind_of_error hy]
    exact ⟨.inr ⟨e, e', rfl, rfl, he⟩, h.log⟩

theorem mapError {f g : Diagnostic → Diagnostic} (h : x.InStep R y)
    (hf : ∀ e e', e.outline = e'.outline → (f e).outline = (g e').outline) :
    (x.mapError f).InStep R (y.mapError g) := by
  refine ⟨?_, h.log⟩
  rcases h.outcome with ⟨a, b, hx, hy, hab⟩ | ⟨e, e', hx, hy, he⟩
  · exact .inl ⟨a, b, outcome_mapError_eq_ok.2 hx, outcome_mapError_eq_ok.2 hy, hab⟩
  · refine .inr ⟨f e, g e', ?_, ?_, hf e e' he⟩
    · rw [Traced.mapError, hx]
      rfl
    · rw [Traced.mapError, hy]
      rfl

/-- Work on the items of two lists is in step if it is so item by item. -/
theorem mapM {f : γ → Traced Diagnostic α} {g : δ → Traced Diagnostic β} {cs : List γ}
    {ds : List δ} (h : List.Forall₂ (fun c d => (f c).InStep R (g d)) cs ds) :
    (cs.mapM f).InStep (List.Forall₂ R) (ds.mapM g) := by
  induction h with
  | nil => exact pure .nil
  | cons hhead _ ih =>
    rw [List.mapM_cons, List.mapM_cons]
    refine hhead.bind fun a b _ hab => ?_
    exact ih.bind fun as bs _ habs => pure (.cons hab habs)

/-- Work in step that gives equal values comes to the same value or to failures that are reported
alike. -/
theorem report {y : Traced Diagnostic α} (h : x.InStep Eq y) :
    ((∃ a, x.outcome = .ok a ∧ y.outcome = .ok a) ∨
      ∃ e e', x.outcome = .error e ∧ y.outcome = .error e' ∧ e.SameReport e') ∧
    y.log = x.log := by
  refine ⟨?_, h.log.symm⟩
  rcases h.outcome with ⟨a, _, hx, hy, rfl⟩ | ⟨e, e', hx, hy, he⟩
  · exact .inl ⟨a, hx, hy⟩
  · exact .inr ⟨e, e', hx, hy, Diagnostic.sameReport_of_outline he⟩

end InStep

end Traced

namespace Target

/-- Two expressions are written alike. -/
def Expr.SameText (e e' : Expr) : Prop :=
  e.text = e'.text

namespace Expr.SameText

variable {l l' r r' : Expr} {es es' : List Expr}

theorem refl (e : Expr) : e.SameText e :=
  rfl

theorem trans (e e' e'' : Expr) (h : e.SameText e') (h' : e'.SameText e'') : e.SameText e'' :=
  Eq.trans h h'

theorem texts_eq (h : List.Forall₂ Expr.SameText es es') : Expr.texts es = Expr.texts es' := by
  induction h with
  | nil => rfl
  | cons hhead _ ih => rw [Expr.texts, Expr.texts, hhead, ih]

theorem access (h : l.SameText l') (operator member : String) :
    (Expr.access l operator member).SameText (.access l' operator member) := by
  rw [Expr.SameText, Expr.text, Expr.text, h]

theorem assign (hl : l.SameText l') (operator : String) (hr : r.SameText r') :
    (Expr.assign l operator r).SameText (.assign l' operator r') := by
  rw [Expr.SameText, Expr.text, Expr.text, hl, hr]

theorem call (function : String) (h : List.Forall₂ Expr.SameText es es') :
    (Expr.call function es).SameText (.call function es') := by
  rw [Expr.SameText, Expr.text, Expr.text, texts_eq h]

theorem clause (h : l.SameText l') : (Expr.clause l).SameText (.clause l') := by
  rw [Expr.SameText, Expr.text, Expr.text, h]

theorem sequence (h : List.Forall₂ Expr.SameText es es') :
    (Expr.sequence es).SameText (.sequence es') := by
  rw [Expr.SameText, Expr.text, Expr.text, texts_eq h]

end Expr.SameText

/-- Two statements are written alike. -/
def Statement.SameText (s s' : Statement) : Prop :=
  s.text = s'.text

namespace Statement.SameText

variable {e e' : Expr}

theorem refl (s : Statement) : s.SameText s :=
  rfl

theorem trans (s s' s'' : Statement) (h : s.SameText s') (h' : s'.SameText s'') :
    s.SameText s'' :=
  Eq.trans h h'

theorem declare (type identifier : String) (h : e.SameText e') :
    (Statement.declare type identifier (some e)).SameText (.declare type identifier (some e')) := by
  rw [Statement.SameText, Statement.text, Statement.text, h.clause]

theorem effect (h : e.SameText e') : (Statement.effect e).SameText (.effect e') := by
  rw [Statement.SameText, Statement.text, Statement.text, h]

theorem ret (h : e.SameText e') : (Statement.ret (some e)).SameText (.ret (some e')) := by
  rw [Statement.SameText, Statement.text, Statement.text, h]

theorem lines_eq {ss ss' : List Statement} (h : List.Forall₂ Statement.SameText ss ss')
    (indent : String) : ss.map (Statement.line indent) = ss'.map (Statement.line indent) := by
  induction h with
  | nil => rfl
  | cons hhead _ ih => rw [List.map_cons, List.map_cons, ih, Statement.line, hhead, Statement.line]

end Statement.SameText

end Target

namespace Context

open Target

variable {ctx : Context} {n n' site site' : Node}

theorem reject_inStep {α β : Type} {R : α → β → Prop} {cause : Cause}
    (h : site.outline = site'.outline) :
    (ctx.reject cause site : Traced Diagnostic α).InStep R (ctx.reject cause site') := by
  refine Traced.InStep.fail ?_
  simp [Diagnostic.outline, Diagnostic.report, h]

/-- A look-up comes to the same wherever it is needed, but for the node of the failure. -/
theorem find_inStep (l : Lookup) (h : site.outline = site'.outline) :
    (ctx.find l site).InStep Eq (ctx.find l site') := by
  cases hfind : ctx.dialect.find? l with
  | some word =>
    rw [find_of_some hfind, find_of_some hfind]
    exact .pure rfl
  | none =>
    rw [find_of_none hfind, find_of_none hfind]
    refine ⟨.inr ⟨_, _, rfl, rfl, ?_⟩, rfl⟩
    simp [Diagnostic.outline, Diagnostic.report, h]

theorem calledFunction_inStep (callee : Node) (h : site.outline = site'.outline) :
    (ctx.calledFunction callee site).InStep Eq (ctx.calledFunction callee site') := by
  unfold calledFunction calledMethod
  cases callee.ident? with
  | none => exact reject_inStep h
  | some id =>
    simp only
    cases (ctx.resolve callee).bind Symbol.methodKey? with
    | none => exact reject_inStep h
    | some key => exact find_inStep _ h

theorem constructor_inStep (type : Node) (h : site.outline = site'.outline) :
    (ctx.constructor type site).InStep Eq (ctx.constructor type site') := by
  unfold constructor constructedType
  cases (ctx.resolve type).bind Symbol.typeName? with
  | none => exact reject_inStep h
  | some name => exact find_inStep _ h

/-- Two nodes that no expression is lowered from fail in step if they look the same from outside. -/
theorem lowerExpr_inStep_of_outline (h : n.outline = n'.outline)
    (hn : n.kind.isExpressible = false) {R : Target.Expr → Target.Expr → Prop} :
    (ctx.lowerExpr n).InStep R (ctx.lowerExpr n') := by
  have hkind : n.kind = n'.kind := congrArg Prod.fst h
  have hn' : n'.kind.isExpressible = false := hkind ▸ hn
  rw [lowerExpr_of_not_isExpressible hn, lowerExpr_of_not_isExpressible hn', hkind]
  exact reject_inStep h

end Context

end Shading
