import Mathlib.Data.List.Forall2
import Shading.Lowering.Function

/-!
# What a lowering gives

The shapes of nodes that an expression is lowered from, with one induction over all of them and
one statement for each of them that says when its lowering succeeds, and with what. Later proofs
use these and never open the lowering itself.

* `Node.expression_induction`: induction over the nodes that stand in expression positions.
* `Context.outcome_lowerArguments_eq_ok`: arguments are lowered one by one, and none comes out
  blank.
* `Context.outcome_emit_eq_ok`: a source text is the text of a lowered function.
-/

namespace Shading

/-- Whether a node of the kind can be lowered as an expression. -/
def Kind.isExpressible : Kind → Bool
  | .name | .literal | .memberAccess | .assignment | .argument | .argumentList | .invocation
  | .objectCreation | .initializer => true
  | _ => false

/-- Statements of the kinds that can be lowered, all of whose expressions are `P`. -/
inductive Node.StatementWith (P : Node → Prop) : Node → Prop where
  | declaration {loc declLoc varLoc : Location} {type : TypeRef} {x : String} :
    StatementWith P (.localDeclaration loc ⟨declLoc, type, [⟨varLoc, x, none⟩]⟩)
  | initialization {loc declLoc varLoc initLoc : Location} {type : TypeRef} {x : String}
      {value : Node} :
    P value →
    StatementWith P
      (.localDeclaration loc ⟨declLoc, type, [⟨varLoc, x, some ⟨initLoc, value⟩⟩]⟩)
  | effect {loc : Location} {value : Node} :
    P value → StatementWith P (.expressionStatement loc value)
  | returnNothing {loc : Location} : StatementWith P (.returnStatement loc .absent)
  | returnValue {loc : Location} {value : Node} :
    P value → StatementWith P (.returnStatement loc value)

section Induction

set_option linter.unusedSectionVars false

variable {P : Node → Prop}
  (name : ∀ loc id, P (.name loc id))
  (literal : ∀ loc token, P (.literal loc token))
  (memberAccess : ∀ loc target member operator, P target →
    P (.memberAccess loc target member operator))
  (assignment : ∀ loc left operator right, P left → P right →
    P (.assignment loc left operator right))
  (argument : ∀ loc value, P value → P (.argument ⟨loc, value⟩))
  (argumentList : ∀ loc args, (∀ a ∈ args, P (Argument.value a)) → P (.argumentList loc args))
  (initializer : ∀ loc value, P value → P (.initializer ⟨loc, value⟩))
  (invocation : ∀ loc callee listLoc args, (∀ a ∈ args, P (Argument.value a)) →
    P (.invocation loc callee listLoc args))
  (objectCreation : ∀ loc type listLoc args, (∀ a ∈ args, P (Argument.value a)) →
    P (.objectCreation loc type listLoc args))
  (other : ∀ n : Node, n.kind.isExpressible = false → P n)

include name literal memberAccess assignment argument argumentList initializer invocation
  objectCreation other

mutual

/-- Induction over the nodes that an expression can be lowered from. Callees and constructed types
are not lowered, so nothing is assumed about them. -/
@[elab_as_elim]
theorem Node.expression_induction : ∀ n, P n
  | .name loc id => name loc id
  | .literal loc token => literal loc token
  | .memberAccess loc target member operator =>
    memberAccess loc target member operator (Node.expression_induction target)
  | .assignment loc left operator right =>
    assignment loc left operator right (Node.expression_induction left)
      (Node.expression_induction right)
  | .argument ⟨loc, value⟩ => argument loc value (Node.expression_induction value)
  | .argumentList loc args => argumentList loc args (Argument.forall_mem_of_expression args)
  | .initializer ⟨loc, value⟩ => initializer loc value (Node.expression_induction value)
  | .invocation loc callee listLoc args =>
    invocation loc callee listLoc args (Argument.forall_mem_of_expression args)
  | .objectCreation loc type listLoc args =>
    objectCreation loc type listLoc args (Argument.forall_mem_of_expression args)
  | .absent | .binary .. | .unary .. | .conditional .. | .elementAccess .. | .cast ..
  | .declarator _ | .declaration _ | .localDeclaration .. | .expressionStatement ..
  | .returnStatement .. | .block .. | .ifStatement .. | .whileStatement .. | .forStatement ..
  | .unclassified .. => other _ rfl

theorem Argument.forall_mem_of_expression : ∀ args : List Argument, ∀ a ∈ args, P a.value
  | [] => fun _ h => nomatch h
  | ⟨_, value⟩ :: args => fun a h => by
    rcases List.mem_cons.1 h with rfl | h
    · exact Node.expression_induction value
    · exact Argument.forall_mem_of_expression args a h

end

end Induction

/-- What stands in the second of two related lists is related to something in the first. -/
theorem exists_mem_of_forall₂ {α β : Type} {R : α → β → Prop} {as : List α} {bs : List β}
    (h : List.Forall₂ R as bs) {b : β} (hb : b ∈ bs) : ∃ a ∈ as, R a b := by
  induction h with
  | nil => cases hb
  | cons ha _ ih =>
    rcases List.mem_cons.1 hb with rfl | hb
    · exact ⟨_, List.mem_cons_self, ha⟩
    · obtain ⟨a, hmem, ha⟩ := ih hb
      exact ⟨a, List.mem_cons_of_mem _ hmem, ha⟩

namespace Traced

variable {ε ε' α β : Type}

theorem outcome_mapError_eq_ok {f : ε → ε'} {x : Traced ε α} {a : α} :
    (x.mapError f).outcome = .ok a ↔ x.outcome = .ok a := by
  rw [mapError]
  cases x.outcome <;> simp [Except.mapError]

/-- What can be seen of a success tells that there is one. -/
theorem outcome_eq_ok_of_toOption {x : Traced ε α} {a : α} (h : x.outcome.toOption = some a) :
    x.outcome = .ok a := by
  cases hx : x.outcome with
  | error e =>
    rw [hx] at h
    cases h
  | ok a' =>
    rw [hx] at h
    exact congrArg _ (Option.some.inj h)

/-- Work on the items of a list succeeds when it does so on each of them. -/
theorem outcome_mapM_eq_ok {f : α → Traced ε β} {as : List α} {bs : List β} :
    (as.mapM f).outcome = .ok bs ↔ List.Forall₂ (fun a b => (f a).outcome = .ok b) as bs := by
  induction as generalizing bs with
  | nil => cases bs <;> simp
  | cons a as ih =>
    simp only [List.mapM_cons, outcome_bind_eq_ok, outcome_pure, ih]
    constructor
    · rintro ⟨b, hb, bs', hbs, h⟩
      obtain rfl := Except.ok.inj h
      exact .cons hb hbs
    · intro h
      cases h with
      | cons hb hbs => exact ⟨_, hb, _, hbs, rfl⟩

end Traced

namespace Context

variable {ctx : Context}

theorem outcome_find_eq_ok {l : Lookup} {site : Node} {word : String} :
    (ctx.find l site).outcome = .ok word ↔ ctx.dialect.find? l = some word := by
  cases h : ctx.dialect.find? l with
  | none => rw [find_of_none h]; exact iff_of_false nofun nofun
  | some w => rw [find_of_some h]; simp

theorem lowerExpr_of_not_isExpressible {n : Node} (h : n.kind.isExpressible = false) :
    ctx.lowerExpr n = ctx.reject (.unsupported .expression n.kind) n := by
  cases n <;> first | rfl | cases h

theorem outcome_nonBlank_eq_ok {use : Use} {value site : Node} {e e' : Target.Expr} :
    (ctx.nonBlank use value site e).outcome = .ok e' ↔ e.text ≠ "" ∧ e' = e := by
  rw [nonBlank]
  split
  · rename_i h
    exact iff_of_false nofun fun h' => h'.1 h
  · rename_i h
    simp [h, eq_comm]

theorem outcome_lowerArgument_eq_ok {a : Argument} {e : Target.Expr} :
    (ctx.lowerArgument a).outcome = .ok e ↔
      (ctx.lowerExpr a.value).outcome = .ok e ∧ e.text ≠ "" := by
  obtain ⟨loc, value⟩ := a
  simp only [lowerArgument, Traced.outcome_bind_eq_ok, outcome_nonBlank_eq_ok]
  constructor
  · rintro ⟨e', h, hne, rfl⟩
    exact ⟨h, hne⟩
  · rintro ⟨h, hne⟩
    exact ⟨e, h, hne, rfl⟩

theorem lowerArguments_eq_mapM (args : List Argument) :
    ctx.lowerArguments args = args.mapM ctx.lowerArgument := by
  induction args with
  | nil => rfl
  | cons a args ih => rw [lowerArguments, List.mapM_cons, ih]

/-- Arguments are lowered one by one, and none comes out blank. -/
theorem outcome_lowerArguments_eq_ok {args : List Argument} {es : List Target.Expr} :
    (ctx.lowerArguments args).outcome = .ok es ↔
      List.Forall₂ (fun a e => (ctx.lowerExpr (Argument.value a)).outcome = .ok e ∧ e.text ≠ "")
        args es := by
  simp only [lowerArguments_eq_mapM, Traced.outcome_mapM_eq_ok, outcome_lowerArgument_eq_ok]

/-- What arguments are lowered to comes from one of them each. -/
theorem exists_mem_of_lowerArguments {args : List Argument} {es : List Target.Expr}
    (h : (ctx.lowerArguments args).outcome = .ok es) {e : Target.Expr} (he : e ∈ es) :
    ∃ a ∈ args, (ctx.lowerExpr (Argument.value a)).outcome = .ok e ∧ e.text ≠ "" :=
  exists_mem_of_forall₂ (outcome_lowerArguments_eq_ok.1 h) he

theorem outcome_lowerExpr_name_eq_ok {loc : Location} {id : String} {e : Target.Expr} :
    (ctx.lowerExpr (.name loc id)).outcome = .ok e ↔ e = .word id := by
  simp [lowerExpr, eq_comm]

theorem outcome_lowerExpr_literal_eq_ok {loc : Location} {token : String} {e : Target.Expr} :
    (ctx.lowerExpr (.literal loc token)).outcome = .ok e ↔ e = .word token := by
  simp [lowerExpr, eq_comm]

theorem outcome_lowerExpr_memberAccess_eq_ok {loc : Location} {target : Node} {member : Ident}
    {operator : String} {e : Target.Expr} :
    (ctx.lowerExpr (.memberAccess loc target member operator)).outcome = .ok e ↔
      ∃ t, (ctx.lowerExpr target).outcome = .ok t ∧ e = .access t operator member.id := by
  simp only [lowerExpr, Traced.outcome_bind_eq_ok, Traced.outcome_pure, Except.ok.injEq,
    eq_comm (b := e)]

theorem outcome_lowerExpr_assignment_eq_ok {loc : Location} {left right : Node}
    {operator : String} {e : Target.Expr} :
    (ctx.lowerExpr (.assignment loc left operator right)).outcome = .ok e ↔
      ∃ l r, (ctx.lowerExpr left).outcome = .ok l ∧ (ctx.lowerExpr right).outcome = .ok r ∧
        e = .assign l operator r := by
  simp only [lowerExpr, Traced.outcome_bind_eq_ok, Traced.outcome_pure, Except.ok.injEq,
    exists_and_left, eq_comm (b := e)]

theorem outcome_lowerExpr_argument_eq_ok {loc : Location} {value : Node} {e : Target.Expr} :
    (ctx.lowerExpr (.argument ⟨loc, value⟩)).outcome = .ok e ↔
      (ctx.lowerExpr value).outcome = .ok e ∧ e.text ≠ "" :=
  outcome_lowerArgument_eq_ok

theorem outcome_lowerExpr_argumentList_eq_ok {loc : Location} {args : List Argument}
    {e : Target.Expr} :
    (ctx.lowerExpr (.argumentList loc args)).outcome = .ok e ↔
      ∃ es, (ctx.lowerArguments args).outcome = .ok es ∧ e = .sequence es := by
  simp only [lowerExpr, Traced.outcome_bind_eq_ok, Traced.outcome_pure, Except.ok.injEq,
    eq_comm (b := e)]

theorem outcome_lowerExpr_initializer_eq_ok {loc : Location} {value : Node} {e : Target.Expr} :
    (ctx.lowerExpr (.initializer ⟨loc, value⟩)).outcome = .ok e ↔
      ∃ v, (ctx.lowerExpr value).outcome = .ok v ∧ e = .clause v := by
  simp only [lowerExpr, Traced.outcome_bind_eq_ok, Traced.outcome_pure, Except.ok.injEq,
    eq_comm (b := e)]

theorem outcome_lowerExpr_invocation_eq_ok {loc listLoc : Location} {callee : Node}
    {args : List Argument} {e : Target.Expr} :
    (ctx.lowerExpr (.invocation loc callee listLoc args)).outcome = .ok e ↔
      ∃ f es, (ctx.calledFunction callee (.invocation loc callee listLoc args)).outcome = .ok f ∧
        (ctx.lowerArguments args).outcome = .ok es ∧ e = .call f es := by
  simp only [lowerExpr, Traced.outcome_bind_eq_ok, Traced.outcome_pure, Except.ok.injEq,
    exists_and_left, eq_comm (b := e)]

theorem outcome_lowerExpr_objectCreation_eq_ok {loc listLoc : Location} {type : Node}
    {args : List Argument} {e : Target.Expr} :
    (ctx.lowerExpr (.objectCreation loc type listLoc args)).outcome = .ok e ↔
      ∃ f es, (ctx.constructor type (.objectCreation loc type listLoc args)).outcome = .ok f ∧
        (ctx.lowerArguments args).outcome = .ok es ∧ e = .call f es := by
  simp only [lowerExpr, Traced.outcome_bind_eq_ok, Traced.outcome_pure, Except.ok.injEq,
    exists_and_left, eq_comm (b := e)]

theorem outcome_lowerExpr_ne_ok {n : Node} (h : n.kind.isExpressible = false)
    (e : Target.Expr) : (ctx.lowerExpr n).outcome ≠ .ok e := by
  rw [lowerExpr_of_not_isExpressible h]
  nofun

/-- What a statement can be lowered to. -/
inductive StatementLowering (ctx : Context) : Node → Target.Statement → Prop where
  | declaration {loc declLoc varLoc : Location} {type : TypeRef} {x token : String} :
    ctx.dialect.find? (.type type.fullName) = some token →
    StatementLowering ctx (.localDeclaration loc ⟨declLoc, type, [⟨varLoc, x, none⟩]⟩)
      (.declare token x none)
  | initialization {loc declLoc varLoc initLoc : Location} {type : TypeRef} {x token : String}
      {value : Node} {e : Target.Expr} :
    ctx.dialect.find? (.type type.fullName) = some token →
    (ctx.lowerExpr value).outcome = .ok e →
    StatementLowering ctx
      (.localDeclaration loc ⟨declLoc, type, [⟨varLoc, x, some ⟨initLoc, value⟩⟩]⟩)
      (.declare token x (some e))
  | effect {loc : Location} {value : Node} {e : Target.Expr} :
    (ctx.lowerExpr value).outcome = .ok e → e.text ≠ "" →
    StatementLowering ctx (.expressionStatement loc value) (.effect e)
  | returnNothing {loc : Location} :
    StatementLowering ctx (.returnStatement loc .absent) (.ret none)
  | returnValue {loc : Location} {value : Node} {e : Target.Expr} :
    (ctx.lowerExpr value).outcome = .ok e → e.text ≠ "" →
    StatementLowering ctx (.returnStatement loc value) (.ret (some e))

theorem outcome_lowerValue_eq_ok {use : Use} {value site : Node} {e : Target.Expr} :
    (ctx.lowerValue use value site).outcome = .ok e ↔
      (ctx.lowerExpr value).outcome = .ok e ∧ e.text ≠ "" := by
  simp only [lowerValue, Traced.outcome_bind_eq_ok, outcome_nonBlank_eq_ok]
  constructor
  · rintro ⟨e', h, hne, rfl⟩
    exact ⟨h, hne⟩
  · rintro ⟨h, hne⟩
    exact ⟨e, h, hne, rfl⟩

/-- A statement that is lowered is of one of three kinds, and declares one variable if it declares
any. -/
theorem StatementLowering.of_lowerStatement {n : Node} {s : Target.Statement}
    (h : (ctx.lowerStatement n).outcome = .ok s) : StatementLowering ctx n s := by
  rw [lowerStatement, Traced.outcome_mapError_eq_ok] at h
  unfold lowerUnlocated at h
  split at h
  · rename_i loc decl
    unfold lowerDeclaration at h
    split at h
    · rename_i declLoc type varLoc x init
      simp only [Traced.outcome_bind_eq_ok, outcome_find_eq_ok] at h
      obtain ⟨token, htoken, value, hvalue, h⟩ := h
      obtain rfl := Except.ok.inj h
      cases init with
      | none =>
        obtain rfl := Except.ok.inj hvalue
        exact .declaration htoken
      | some init =>
        obtain ⟨initLoc, v⟩ := init
        simp only [lowerInitializer, Traced.outcome_bind_eq_ok] at hvalue
        obtain ⟨e, he, hvalue⟩ := hvalue
        obtain rfl := Except.ok.inj hvalue
        exact .initialization htoken he
    · cases h
  · simp only [Traced.outcome_bind_eq_ok, outcome_lowerValue_eq_ok] at h
    obtain ⟨e, ⟨he, hne⟩, h⟩ := h
    obtain rfl := Except.ok.inj h
    exact .effect he hne
  · obtain rfl := Except.ok.inj h
    exact .returnNothing
  · simp only [Traced.outcome_bind_eq_ok, outcome_lowerValue_eq_ok] at h
    obtain ⟨e, ⟨he, hne⟩, h⟩ := h
    obtain rfl := Except.ok.inj h
    exact .returnValue he hne
  · cases h

theorem outcome_lowerBody_eq_ok {ns : List Node} {ss : List Target.Statement} :
    (ctx.lowerBody ns).outcome = .ok ss ↔
      List.Forall₂ (fun n s => (ctx.lowerStatement n).outcome = .ok s) ns ss :=
  Traced.outcome_mapM_eq_ok

theorem outcome_lowerParameter_eq_ok {p : Parameter} {q : Target.Parameter} :
    (ctx.lowerParameter p).outcome = .ok q ↔
      ctx.dialect.find? (.type p.type.fullName) = some q.type ∧ q.name = p.name := by
  simp only [lowerParameter, Traced.outcome_bind_eq_ok, outcome_find_eq_ok]
  constructor
  · rintro ⟨token, h, hq⟩
    obtain rfl := Except.ok.inj hq
    exact ⟨h, rfl⟩
  · rintro ⟨h, hname⟩
    exact ⟨q.type, h, by rw [← hname]; rfl⟩

theorem outcome_lowerSignature_eq_ok {m : Method} {s : Target.Signature} :
    (ctx.lowerSignature m).outcome = .ok s ↔
      ctx.dialect.find? (.type m.returnType.fullName) = some s.returnType ∧ s.name = m.name ∧
        List.Forall₂
          (fun p q => ctx.dialect.find? (.type p.type.fullName) = some q.type ∧ q.name = p.name)
          m.parameters s.parameters := by
  simp only [lowerSignature, lowerParameters, Traced.outcome_mapError_eq_ok,
    Traced.outcome_bind_eq_ok, outcome_find_eq_ok, Traced.outcome_mapM_eq_ok,
    outcome_lowerParameter_eq_ok]
  constructor
  · rintro ⟨token, htoken, ps, hps, h⟩
    obtain rfl := Except.ok.inj h
    exact ⟨htoken, rfl, hps⟩
  · rintro ⟨htoken, hname, hps⟩
    exact ⟨s.returnType, htoken, s.parameters, hps, by rw [← hname]; rfl⟩

/-- A function consists of a lowered signature and a lowered body. -/
theorem outcome_lowerFunction_eq_ok {d : Definition} {f : Target.Function} :
    (ctx.lowerFunction d).outcome = .ok f ↔
      (ctx.lowerSignature d.method).outcome = .ok f.signature ∧
        (ctx.lowerBody d.body.statements).outcome = .ok f.body := by
  simp only [lowerFunction, Traced.outcome_bind_eq_ok]
  constructor
  · rintro ⟨_, -, signature, hs, body, hb, _, -, h⟩
    obtain rfl := Except.ok.inj h
    exact ⟨hs, hb⟩
  · rintro ⟨hs, hb⟩
    exact ⟨(), rfl, f.signature, hs, f.body, hb, (), rfl, rfl⟩

/-- A source text is the text of a lowered function. -/
theorem outcome_emit_eq_ok {d : Definition} {text : String} :
    (ctx.emit d).outcome = .ok text ↔
      ∃ f, (ctx.lowerFunction d).outcome = .ok f ∧ text = f.text "" := by
  simp only [emit, emitIndented, Traced.outcome_bind_eq_ok, Traced.outcome_pure, Except.ok.injEq,
    eq_comm (b := text)]

/-- A context without symbols, in which the dialect has a word for `float` and for nothing else. -/
def floatOnly : Context :=
  ⟨⟨"HLSL", .ofList [("float", "float")], .empty⟩, fun _ => none, none⟩

end Context

end Shading
