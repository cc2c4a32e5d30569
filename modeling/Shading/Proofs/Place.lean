import Shading.Proofs.Failing
import Shading.Proofs.Rendered
import Shading.Task

/-!
# Where failures are found

A lowering comes to a node if everything before it succeeds. What fails there fails as a whole, and
a failure is found at a node that the lowering has come to. It is found nowhere exactly when that
node is missing. A failure without a line is then given the place of the statement, line and column
together, if the statement has a line.

* `Context.Reaches`, `Context.StatementReaches`: what an expression and a statement come to.
* `Context.Reaches.outcome_eq_error`: what fails where it is reached makes the whole fail.
* `Context.lowerUnlocated_quietUnless_reaches`: a failure is found at a node that is reached.
* `Diagnostic.PlacedBy`: a failure before and after the statement has given its place.
* `Context.failure_placed`: **failures are found at the offending node, or else at its statement.**
-/

namespace Shading

namespace Traced

variable {ε α β : Type}

/-- Work on the items of a list fails as it fails on an item behind items on which it succeeds. -/
theorem outcome_mapM_eq_error {f : α → Traced ε β} {before after : List α} {a : α} {e : ε}
    (hbefore : ∀ b ∈ before, ∃ c, (f b).outcome = .ok c) (ha : (f a).outcome = .error e) :
    ((before ++ a :: after).mapM f).outcome = .error e := by
  induction before with
  | nil =>
    rw [List.nil_append, List.mapM_cons, outcome_bind_eq_error]
    exact .inl ha
  | cons b before ih =>
    obtain ⟨⟨c, hc⟩, hbefore⟩ := List.forall_mem_cons.1 hbefore
    rw [List.cons_append, List.mapM_cons, outcome_bind_eq_error]
    refine .inr ⟨c, hc, ?_⟩
    rw [outcome_bind_eq_error]
    exact .inl (ih hbefore)

/-- What is only written down once it is there fails as it fails. -/
theorem outcome_bind_pure_eq_error {x : Traced ε α} {f : α → β} {e : ε} :
    (x >>= fun a => pure (f a)).outcome = .error e ↔ x.outcome = .error e := by
  rw [outcome_bind_eq_error]
  constructor
  · rintro (hx | ⟨a, -, ha⟩)
    · exact hx
    · cases ha
  · exact .inl

end Traced

namespace Context

section Reaching

variable (ctx : Context)

/-- The expression `n` is lowered. -/
def Lowers (n : Node) : Prop :=
  ∃ e, (ctx.lowerExpr n).outcome = .ok e

/-- `ctx.Reaches n k` says that the lowering of the expression `n` comes to `k`: what stands before
`k` is lowered, and callees and constructed types on the way are understood. -/
inductive Reaches : Node → Node → Prop where
  | whole {n : Node} : Reaches n n
  | target {loc : Location} {target k : Node} {member : Ident} {operator : String} :
    Reaches target k → Reaches (.memberAccess loc target member operator) k
  | left {loc : Location} {left right k : Node} {operator : String} :
    Reaches left k → Reaches (.assignment loc left operator right) k
  | right {loc : Location} {left right k : Node} {operator : String} :
    ctx.Lowers left → Reaches right k → Reaches (.assignment loc left operator right) k
  | argument {loc : Location} {value k : Node} :
    Reaches value k → Reaches (.argument ⟨loc, value⟩) k
  | firstValue {loc : Location} {value k : Node} :
    Reaches value k → Reaches (.initializer ⟨loc, value⟩) k
  | listed {loc : Location} {before after : List Argument} {a : Argument} {k : Node} :
    (∀ b ∈ before, ctx.Lowers (.argument b)) → Reaches (.argument a) k →
    Reaches (.argumentList loc (before ++ a :: after)) k
  | called {loc listLoc : Location} {callee k : Node} {before after : List Argument} {a : Argument}
      {f : String} :
    (ctx.calledFunction callee (.invocation loc callee listLoc (before ++ a :: after))).outcome =
      .ok f →
    (∀ b ∈ before, ctx.Lowers (.argument b)) → Reaches (.argument a) k →
    Reaches (.invocation loc callee listLoc (before ++ a :: after)) k
  | constructed {loc listLoc : Location} {type k : Node} {before after : List Argument}
      {a : Argument} {f : String} :
    (ctx.constructor type (.objectCreation loc type listLoc (before ++ a :: after))).outcome =
      .ok f →
    (∀ b ∈ before, ctx.Lowers (.argument b)) → Reaches (.argument a) k →
    Reaches (.objectCreation loc type listLoc (before ++ a :: after)) k

/-- `ctx.StatementReaches s k` says that the lowering of the statement `s` comes to lower the
expression `k`. -/
inductive StatementReaches : Node → Node → Prop where
  | firstValue {loc declLoc varLoc initLoc : Location} {type : TypeRef} {x token : String}
      {value k : Node} :
    ctx.dialect.find? (.type type.fullName) = some token → ctx.Reaches value k →
    StatementReaches
      (.localDeclaration loc ⟨declLoc, type, [⟨varLoc, x, some ⟨initLoc, value⟩⟩]⟩) k
  | effect {loc : Location} {value k : Node} :
    ctx.Reaches value k → StatementReaches (.expressionStatement loc value) k
  | returned {loc : Location} {value k : Node} :
    value ≠ .absent → ctx.Reaches value k → StatementReaches (.returnStatement loc value) k

end Reaching

variable {ctx : Context} {n k s : Node}

/-- What is reached is rendered. -/
theorem Reaches.mem_rendered (h : ctx.Reaches n k) : k ∈ n.rendered := by
  induction h with
  | whole => exact Node.mem_rendered_self _
  | target _ ih => exact List.mem_cons_of_mem _ ih
  | left _ ih => exact List.mem_cons_of_mem _ (List.mem_append_left _ ih)
  | right _ _ ih => exact List.mem_cons_of_mem _ (List.mem_append_right _ ih)
  | argument _ ih => exact List.mem_cons_of_mem _ ih
  | firstValue _ ih => exact List.mem_cons_of_mem _ ih
  | listed _ _ ih =>
    exact List.mem_cons_of_mem _ (Node.mem_renderedAll List.mem_append_cons_self ih)
  | called _ _ _ ih =>
    exact List.mem_cons_of_mem _ (Node.mem_renderedAll List.mem_append_cons_self ih)
  | constructed _ _ _ ih =>
    exact List.mem_cons_of_mem _ (Node.mem_renderedAll List.mem_append_cons_self ih)

theorem StatementReaches.mem_expressions (h : ctx.StatementReaches s k) : k ∈ s.expressions := by
  cases h with
  | firstValue _ hk => simpa [Node.expressions] using hk.mem_rendered
  | effect hk => exact hk.mem_rendered
  | returned hvalue hk =>
    rw [Node.expressions_returnStatement hvalue]
    exact hk.mem_rendered

/-- Arguments fail as the first of them fails that fails. -/
theorem outcome_lowerArguments_eq_error {before after : List Argument} {a : Argument}
    {e : Diagnostic} (hbefore : ∀ b ∈ before, ctx.Lowers (.argument b))
    (ha : (ctx.lowerExpr (.argument a)).outcome = .error e) :
    (ctx.lowerArguments (before ++ a :: after)).outcome = .error e := by
  rw [lowerArguments_eq_mapM]
  exact Traced.outcome_mapM_eq_error hbefore ha

/-- **What fails where it is reached makes the whole expression fail.** -/
theorem Reaches.outcome_eq_error (h : ctx.Reaches n k) {e : Diagnostic}
    (hk : (ctx.lowerExpr k).outcome = .error e) : (ctx.lowerExpr n).outcome = .error e := by
  induction h with
  | whole => exact hk
  | target _ ih => exact Traced.outcome_bind_eq_error.2 (.inl (ih hk))
  | left _ ih => exact Traced.outcome_bind_eq_error.2 (.inl (ih hk))
  | right hleft _ ih =>
    obtain ⟨l, hl⟩ := hleft
    refine Traced.outcome_bind_eq_error.2 (.inr ⟨l, hl, ?_⟩)
    exact Traced.outcome_bind_eq_error.2 (.inl (ih hk))
  | argument _ ih => exact Traced.outcome_bind_eq_error.2 (.inl (ih hk))
  | firstValue _ ih => exact Traced.outcome_bind_eq_error.2 (.inl (ih hk))
  | listed hbefore _ ih =>
    refine Traced.outcome_bind_eq_error.2 (.inl ?_)
    exact outcome_lowerArguments_eq_error hbefore (ih hk)
  | called hf hbefore _ ih =>
    refine Traced.outcome_bind_eq_error.2 (.inr ⟨_, hf, ?_⟩)
    refine Traced.outcome_bind_eq_error.2 (.inl ?_)
    exact outcome_lowerArguments_eq_error hbefore (ih hk)
  | constructed hf hbefore _ ih =>
    refine Traced.outcome_bind_eq_error.2 (.inr ⟨_, hf, ?_⟩)
    refine Traced.outcome_bind_eq_error.2 (.inl ?_)
    exact outcome_lowerArguments_eq_error hbefore (ih hk)

theorem StatementReaches.outcome_eq_error (h : ctx.StatementReaches s k) {e : Diagnostic}
    (hk : (ctx.lowerExpr k).outcome = .error e) : (ctx.lowerUnlocated s).outcome = .error e := by
  cases h with
  | firstValue htype hvalue =>
    have he := hvalue.outcome_eq_error hk
    refine Traced.outcome_bind_eq_error.2 (.inr ⟨_, outcome_find_eq_ok.2 htype, ?_⟩)
    refine Traced.outcome_bind_eq_error.2 (.inl ?_)
    exact Traced.outcome_bind_eq_error.2 (.inl he)
  | effect hvalue =>
    have he := hvalue.outcome_eq_error hk
    refine Traced.outcome_bind_eq_error.2 (.inl ?_)
    exact Traced.outcome_bind_eq_error.2 (.inl he)
  | returned hne hvalue =>
    have he := hvalue.outcome_eq_error hk
    rw [lowerUnlocated]
    · refine Traced.outcome_bind_eq_error.2 (.inl ?_)
      exact Traced.outcome_bind_eq_error.2 (.inl he)
    · exact hne

/-- A look-up is reported where it is needed. -/
theorem find_quietUnless_node (l : Lookup) (site : Node) :
    (ctx.find l site).QuietUnless fun e _ => e.node = site := by
  refine (quietUnless_find l site).mono ?_
  rintro e log ⟨-, rfl, -⟩
  rfl

theorem nonBlank_quietUnless_node (use : Use) (value site : Node) (e : Target.Expr) :
    (ctx.nonBlank use value site e).QuietUnless fun e _ => e.node = site := by
  unfold nonBlank
  split
  · exact Traced.quietUnless_fail rfl
  · exact Traced.quietUnless_pure _

/-- A callee that is not understood is reported at its call. -/
theorem calledFunction_quietUnless_node (callee site : Node) :
    (ctx.calledFunction callee site).QuietUnless fun e _ => e.node = site := by
  unfold calledFunction calledMethod
  cases callee.ident? with
  | none => exact Traced.quietUnless_fail rfl
  | some id =>
    simp only
    cases (ctx.resolve callee).bind Symbol.methodKey? with
    | none => exact Traced.quietUnless_fail rfl
    | some key => exact find_quietUnless_node _ site

/-- A constructed type that is not understood is reported at its construction. -/
theorem constructor_quietUnless_node (type site : Node) :
    (ctx.constructor type site).QuietUnless fun e _ => e.node = site := by
  unfold constructor constructedType
  cases (ctx.resolve type).bind Symbol.typeName? with
  | none => exact Traced.quietUnless_fail rfl
  | some name => exact find_quietUnless_node _ site

/-- An argument fails where its value fails, or itself. -/
theorem lowerArgument_quietUnless_reaches {a : Argument}
    (ih : (ctx.lowerExpr a.value).QuietUnless fun e _ => ctx.Reaches a.value e.node) :
    (ctx.lowerArgument a).QuietUnless fun e _ => ctx.Reaches (.argument a) e.node := by
  obtain ⟨loc, value⟩ := a
  have hvalue : (ctx.lowerExpr value).QuietUnless
      fun e _ => ctx.Reaches (.argument ⟨loc, value⟩) e.node := ih.mono fun e _ he => .argument he
  refine hvalue.bind fun t _ => (nonBlank_quietUnless_node _ _ _ t).mono ?_
  rintro e - he
  rw [he]
  exact .whole

/-- Arguments fail at what one of them comes to, behind arguments that are lowered. -/
theorem lowerArguments_quietUnless_reaches {args : List Argument}
    (ih : ∀ a ∈ args, (ctx.lowerExpr (Argument.value a)).QuietUnless
      fun e _ => ctx.Reaches a.value e.node)
    (hn : ∀ before a after k, args = before ++ a :: after →
      (∀ b ∈ before, ctx.Lowers (.argument b)) → ctx.Reaches (.argument a) k → ctx.Reaches n k) :
    (ctx.lowerArguments args).QuietUnless fun e _ => ctx.Reaches n e.node := by
  rw [lowerArguments_eq_mapM]
  refine Traced.quietUnless_mapM ?_
  intro before a after hsplit hbefore
  have ha : a ∈ args := by
    rw [hsplit]
    exact List.mem_append_cons_self
  refine (lowerArgument_quietUnless_reaches (ih a ha)).mono ?_
  intro e _ he
  exact hn before a after e.node hsplit hbefore he

theorem lowerExpr_quietUnless_reaches (n : Node) :
    (ctx.lowerExpr n).QuietUnless fun e _ => ctx.Reaches n e.node := by
  induction n using Node.expression_induction with
  | name loc id => exact Traced.quietUnless_pure _
  | literal loc token => exact Traced.quietUnless_pure _
  | memberAccess loc target member operator ih =>
    refine Traced.QuietUnless.bind (ih.mono ?_) fun t _ => Traced.quietUnless_pure _
    exact fun e _ he => .target he
  | assignment loc left operator right ihl ihr =>
    refine Traced.QuietUnless.bind (ihl.mono ?_) fun l hl => ?_
    · exact fun e _ he => .left he
    · refine Traced.QuietUnless.bind (ihr.mono ?_) fun r _ => Traced.quietUnless_pure _
      exact fun e _ he => .right ⟨l, hl⟩ he
  | argument loc value ih => exact lowerArgument_quietUnless_reaches ih
  | argumentList loc args ih =>
    refine Traced.QuietUnless.bind (lowerArguments_quietUnless_reaches ih ?_)
      fun es _ => Traced.quietUnless_pure _
    rintro before a after k rfl hbefore hk
    exact .listed hbefore hk
  | initializer loc value ih =>
    refine Traced.QuietUnless.bind (ih.mono ?_) fun v _ => Traced.quietUnless_pure _
    exact fun e _ he => .firstValue he
  | invocation loc callee listLoc args ih =>
    refine Traced.QuietUnless.bind ((calledFunction_quietUnless_node callee _).mono ?_)
      fun f hf => ?_
    · rintro e - he
      rw [he]
      exact .whole
    · refine Traced.QuietUnless.bind (lowerArguments_quietUnless_reaches ih ?_)
        fun es _ => Traced.quietUnless_pure _
      rintro before a after k rfl hbefore hk
      exact .called hf hbefore hk
  | objectCreation loc type listLoc args ih =>
    refine Traced.QuietUnless.bind ((constructor_quietUnless_node type _).mono ?_)
      fun f hf => ?_
    · rintro e - he
      rw [he]
      exact .whole
    · refine Traced.QuietUnless.bind (lowerArguments_quietUnless_reaches ih ?_)
        fun es _ => Traced.quietUnless_pure _
      rintro before a after k rfl hbefore hk
      exact .constructed hf hbefore hk
  | other n hn =>
    rw [lowerExpr_of_not_isExpressible hn]
    exact Traced.quietUnless_fail .whole

/-- What a statement evaluates or returns fails at what it comes to, or at the statement. -/
theorem lowerValue_quietUnless_reaches {use : Use} {value site : Node}
    (hsite : ∀ k, ctx.Reaches value k → ctx.StatementReaches site k) :
    (ctx.lowerValue use value site).QuietUnless
      fun e _ => e.node = site ∨ ctx.StatementReaches site e.node := by
  have hvalue := (lowerExpr_quietUnless_reaches value).mono
    fun e _ he => (Or.inr (hsite e.node he) : e.node = site ∨ ctx.StatementReaches site e.node)
  refine hvalue.bind fun t _ => (nonBlank_quietUnless_node _ _ _ t).mono ?_
  exact fun e _ he => .inl he

theorem lowerDeclaration_quietUnless_reaches (loc : Location) (decl : Declaration) :
    (ctx.lowerDeclaration decl (.localDeclaration loc decl)).QuietUnless
      fun e _ => e.node = .localDeclaration loc decl ∨
        ctx.StatementReaches (.localDeclaration loc decl) e.node := by
  obtain ⟨declLoc, type, declarators⟩ := decl
  rcases declarators with _ | ⟨⟨varLoc, x, init⟩, _ | ⟨v, vs⟩⟩
  · exact Traced.quietUnless_fail (.inl rfl)
  · refine Traced.QuietUnless.bind ((find_quietUnless_node _ _).mono ?_) fun token htoken => ?_
    · exact fun e _ he => .inl he
    rcases init with _ | ⟨initLoc, value⟩
    · exact Traced.quietUnless_pure _
    · have htype := outcome_find_eq_ok.1 htoken
      have hvalue : (ctx.lowerExpr value).QuietUnless fun e _ => ctx.Reaches value e.node :=
        lowerExpr_quietUnless_reaches value
      refine Traced.QuietUnless.bind ?_ fun t _ => Traced.quietUnless_pure _
      refine Traced.QuietUnless.bind (hvalue.mono ?_) fun t _ => Traced.quietUnless_pure _
      exact fun e _ he => .inr (.firstValue htype he)
  · exact Traced.quietUnless_fail (.inl rfl)

/-- **A statement fails itself, or at an expression that it comes to.** -/
theorem lowerUnlocated_quietUnless_reaches (s : Node) :
    (ctx.lowerUnlocated s).QuietUnless
      fun e _ => e.node = s ∨ ctx.StatementReaches s e.node := by
  unfold lowerUnlocated
  split
  · exact lowerDeclaration_quietUnless_reaches _ _
  · refine (lowerValue_quietUnless_reaches ?_).bind fun e _ => Traced.quietUnless_pure _
    exact fun k hk => .effect hk
  · exact Traced.quietUnless_pure _
  · rename_i loc value hne
    refine (lowerValue_quietUnless_reaches ?_).bind fun e _ => Traced.quietUnless_pure _
    exact fun k hk => .returned hne hk
  · exact Traced.quietUnless_fail (.inl rfl)

/-- A missing node that is reached as an expression is a failure of its own. -/
theorem outcome_lowerExpr_absent :
    (ctx.lowerExpr .absent).outcome =
      .error (.report ctx.file (.unsupported .expression .absent) .absent) :=
  rfl

/-- A call through a missing node fails at the call. -/
theorem outcome_lowerExpr_missing_callee (loc listLoc : Location) (args : List Argument) :
    (ctx.lowerExpr (.invocation loc .absent listLoc args)).outcome =
      .error (.report ctx.file (.indirectCall .absent) (.invocation loc .absent listLoc args)) :=
  rfl

/-- A construction whose type has no word in the dialect fails at the construction. -/
theorem exists_error_of_constructor {loc listLoc : Location} {type : Node} {args : List Argument}
    (h : ∀ f, (ctx.constructor type (.objectCreation loc type listLoc args)).outcome ≠ .ok f) :
    ∃ e, (ctx.lowerExpr (.objectCreation loc type listLoc args)).outcome = .error e ∧
      e.node = .objectCreation loc type listLoc args := by
  cases hf : (ctx.constructor type (.objectCreation loc type listLoc args)).outcome with
  | ok f => exact absurd hf (h f)
  | error e =>
    refine ⟨e, Traced.outcome_bind_eq_error.2 (.inl hf), ?_⟩
    exact (constructor_quietUnless_node type _).of_error hf

variable (ctx) in
/-- Where a failure `e` of the statement `s` is found, before the statement gives its place. -/
structure FoundIn (s : Node) (e : Diagnostic) : Prop where
  /-- At the statement, or at a node that is rendered in it and that the lowering comes to. -/
  node : e.node = s ∨ e.node ∈ s.expressions ∧ ctx.StatementReaches s e.node
  /-- That node is missing exactly where the lowering comes to a missing node. -/
  absent_iff : e.node = .absent ↔ s = .absent ∨ ctx.StatementReaches s .absent
  call : ∀ loc listLoc args, ctx.StatementReaches s (.invocation loc .absent listLoc args) →
    e.node = .invocation loc .absent listLoc args ∧ e.cause = .indirectCall .absent
  construction : ∀ loc listLoc args,
    ctx.StatementReaches s (.objectCreation loc .absent listLoc args) →
    (∀ f, (ctx.constructor .absent (.objectCreation loc .absent listLoc args)).outcome ≠ .ok f) →
    e.node = .objectCreation loc .absent listLoc args
  line : e.line = e.node.loc.line
  column : e.column = e.node.loc.column
  nowhere : e.node = .absent → e.line = none ∧ e.column = none

theorem foundIn_of_error {e : Diagnostic} (h : (ctx.lowerUnlocated s).outcome = .error e) :
    ctx.FoundIn s e := by
  -- there is one outcome, so what is known of a failure at a node that is reached is known of `e`
  have hsame : ∀ {k e'}, ctx.StatementReaches s k → (ctx.lowerExpr k).outcome = .error e' →
      e = e' := by
    intro k e' hk he'
    exact Except.error.inj (h.symm.trans (hk.outcome_eq_error he'))
  have hnode : e.node = s ∨ ctx.StatementReaches s e.node :=
    (lowerUnlocated_quietUnless_reaches s).of_error h
  refine ⟨?_, ⟨?_, ?_⟩, ?_, ?_, rfl, rfl, ?_⟩
  · rcases hnode with hs | hreached
    · exact .inl hs
    · exact .inr ⟨hreached.mem_expressions, hreached⟩
  · intro habsent
    rw [habsent] at hnode
    rcases hnode with hs | hreached
    · exact .inl hs.symm
    · exact .inr hreached
  · rintro (rfl | hreached)
    · obtain rfl := Except.error.inj h
      rfl
    · obtain rfl := hsame hreached outcome_lowerExpr_absent
      rfl
  · intro loc listLoc args hreached
    obtain rfl := hsame hreached (outcome_lowerExpr_missing_callee loc listLoc args)
    exact ⟨rfl, rfl⟩
  · intro loc listLoc args hreached hconstructor
    obtain ⟨e', he', hnode'⟩ := exists_error_of_constructor hconstructor
    obtain rfl := hsame hreached he'
    exact hnode'
  · intro habsent
    unfold Diagnostic.line Diagnostic.column
    rw [habsent]
    exact ⟨rfl, rfl⟩

end Context

/-- `e'` is the failure `e` once the statement `s` has given its place: line and column of the
statement, both together, if `e` has no line and `s` has one, and else what `e` has itself. -/
structure Diagnostic.PlacedBy (s : Node) (e e' : Diagnostic) : Prop where
  kind : e'.kind = e.kind
  text : e'.text = e.text
  file : e'.file = e.file
  moved : e.line = none → s.loc.line ≠ none →
    e'.node = s ∧ e'.line = s.loc.line ∧ e'.column = s.loc.column
  kept : e.line ≠ none ∨ s.loc.line = none →
    e'.node = e.node ∧ e'.line = e.line ∧ e'.column = e.column

namespace Context

variable {ctx : Context} {s : Node} {e : Diagnostic}

theorem placedBy_locate (hfile : e.file = fileSetting ctx.file) (s : Node) :
    e.PlacedBy s (.locate ctx.file s e) := by
  unfold Diagnostic.locate
  split
  · rename_i hmoves
    refine ⟨rfl, rfl, hfile.symm, fun _ _ => ⟨rfl, rfl, rfl⟩, ?_⟩
    rintro (hline | hline)
    · exact absurd hmoves.1 hline
    · exact absurd hline hmoves.2
  · rename_i hstays
    refine ⟨rfl, rfl, rfl, ?_, fun _ => ⟨rfl, rfl, rfl⟩⟩
    intro hline hs
    exact absurd ⟨hline, hs⟩ hstays

/-- A placed failure has a line if the statement has one. -/
theorem line_ne_none_of_placedBy {e' : Diagnostic} (h : e.PlacedBy s e')
    (hs : s.loc.line ≠ none) : e'.line ≠ none := by
  by_cases hline : e.line = none
  · rw [(h.moved hline hs).2.1]
    exact hs
  · rw [(h.kept (.inl hline)).2.1]
    exact hline

theorem outcome_perform_unlocated_eq_error {indent : String} :
    (ctx.perform (.unlocated indent s)).outcome = .error e ↔
      (ctx.lowerUnlocated s).outcome = .error e :=
  Traced.outcome_bind_pure_eq_error

theorem outcome_perform_statement_eq_error {indent : String} {e' : Diagnostic} :
    (ctx.perform (.statement indent s)).outcome = .error e' ↔
      ∃ e, (ctx.lowerUnlocated s).outcome = .error e ∧ e' = .locate ctx.file s e := by
  have hlowered : (ctx.perform (.statement indent s)).outcome = .error e' ↔
      (ctx.lowerStatement s).outcome = .error e' := Traced.outcome_bind_pure_eq_error
  rw [hlowered]
  unfold lowerStatement Traced.mapError
  cases (ctx.lowerUnlocated s).outcome with
  | ok t =>
    refine iff_of_false nofun ?_
    rintro ⟨e, he, -⟩
    cases he
  | error e => simp [Except.mapError, eq_comm]

/-- **Failures are found at the offending node, or else at its statement, and never between the
two.** A statement fails exactly when its lowering fails before it gives its place, for the same
reason and in the same file; so every failure of a statement that has a line has one. -/
theorem failure_placed (ctx : Context) (indent : String) (s : Node) :
    (∀ e, (ctx.perform (.unlocated indent s)).outcome = .error e → ctx.FoundIn s e ∧
      ∃ e', (ctx.perform (.statement indent s)).outcome = .error e' ∧ e.PlacedBy s e') ∧
    ∀ e', (ctx.perform (.statement indent s)).outcome = .error e' →
      (∃ e, (ctx.perform (.unlocated indent s)).outcome = .error e ∧ ctx.FoundIn s e ∧
        e.PlacedBy s e') ∧
      (s.loc.line ≠ none → e'.line ≠ none) := by
  have hplaced : ∀ e, (ctx.lowerUnlocated s).outcome = .error e →
      e.PlacedBy s (.locate ctx.file s e) := by
    intro e he
    have hleaves := (quietUnless_lowerUnlocated s).of_error he
    exact placedBy_locate hleaves.file_eq s
  constructor
  · intro e he
    rw [outcome_perform_unlocated_eq_error] at he
    refine ⟨foundIn_of_error he, .locate ctx.file s e, ?_, hplaced e he⟩
    exact outcome_perform_statement_eq_error.2 ⟨e, he, rfl⟩
  · intro e' he'
    obtain ⟨e, he, rfl⟩ := outcome_perform_statement_eq_error.1 he'
    have hp := hplaced e he
    refine ⟨⟨e, outcome_perform_unlocated_eq_error.2 he, foundIn_of_error he, hp⟩, ?_⟩
    exact line_ne_none_of_placedBy hp

/-- A negation with a column and no line is reported at its statement, whose line comes without a
column; so is a missing value, which has no place at all. -/
theorem place_of_statement_is_taken_whole :
    let negation : Node := .unary ⟨none, some 8⟩ "-" (.name .unknown "a")
    let returning (value : Node) : Node := .returnStatement ⟨some 7, none⟩
      (.assignment .unknown (.name .unknown "x") "=" value)
    let found (kind : Kind) (node : Node) : Diagnostic :=
      .report none (.unsupported .expression kind) node
    (floatOnly.perform (.unlocated "" (returning negation))).outcome =
        .error (found .unary negation) ∧
      (floatOnly.perform (.statement "" (returning negation))).outcome =
        .error (found .unary (returning negation)) ∧
      (found .unary negation).PlacedBy (returning negation) (found .unary (returning negation)) ∧
      floatOnly.FoundIn (returning .absent) (found .absent .absent) ∧
      floatOnly.StatementReaches (returning .absent) .absent := by
  intro negation returning found
  have hunary : (floatOnly.perform (.unlocated "" (returning negation))).outcome =
      .error (found .unary negation) := rfl
  have habsent : (floatOnly.perform (.unlocated "" (returning .absent))).outcome =
      .error (found .absent .absent) := rfl
  obtain ⟨-, e', he', hplaced⟩ := (failure_placed floatOnly "" (returning negation)).1 _ hunary
  obtain ⟨hfound, -⟩ := (failure_placed floatOnly "" (returning .absent)).1 _ habsent
  obtain rfl : found .unary (returning negation) = e' := Except.error.inj he'
  refine ⟨hunary, he', hplaced, hfound, ?_⟩
  rcases hfound.absent_iff.1 rfl with h | h
  · cases h
  · exact h

end Context

end Shading
