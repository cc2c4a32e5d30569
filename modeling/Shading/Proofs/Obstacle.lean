import Shading.Proofs.Lowering

/-!
# Obstacles

What stands in the way of a lowering. All obstacles of a tree are listed, in the order in which
they are met: those of a part before those that show only when the part is written, those of a
left part before those of a right one. A lowering fails exactly when there is an obstacle, and
then with the first one.

* `Node.blank`: the nodes that are written as nothing, told from the tree alone.
* `Context.OwnObstacles.forall_mem`: what holds of the obstacles that each node has itself holds of
  all obstacles of a statement.
* `Context.meets_lowerExpr`: expressions stop at their first obstacle, and come out blank exactly
  when the tree says so.
* `Context.meets_emit`: **so do whole functions.**
-/

namespace Shading

/-- Whether an expression is written as nothing. Assignments, calls and clauses always show, and an
argument list shows as soon as it has an argument, since no argument may be blank. -/
def Node.blank : Node → Bool
  | .name _ id => id = ""
  | .literal _ token => token = ""
  | .memberAccess _ target member operator => target.blank && operator = "" && member.id = ""
  | .argument ⟨_, value⟩ => value.blank
  | .argumentList _ args => args.isEmpty
  | _ => false

namespace Traced

variable {ε α β : Type}

/-- With no obstacle in `os`, the work succeeds and `Q` holds of what it gives; else it fails with
the first obstacle. -/
def Meets (x : Traced ε α) (os : List ε) (Q : α → Prop) : Prop :=
  match x.outcome with
  | .ok a => os = [] ∧ Q a
  | .error e => os.head? = some e

theorem meets_pure {a : α} {Q : α → Prop} (h : Q a) : (pure a : Traced ε α).Meets [] Q :=
  ⟨rfl, h⟩

theorem meets_fail (e : ε) (os : List ε) (Q : α → Prop) :
    (fail e : Traced ε α).Meets (e :: os) Q :=
  rfl

theorem meets_note (r : Record) : (note r : Traced ε Unit).Meets [] fun _ => True :=
  ⟨rfl, trivial⟩

/-- The obstacles of two steps in turn are those of the first, then those of the second. -/
theorem Meets.bind {x : Traced ε α} {f : α → Traced ε β} {os os' : List ε} {Q : α → Prop}
    {Q' : β → Prop} (hx : x.Meets os Q) (hf : ∀ a, Q a → (f a).Meets os' Q') :
    (x >>= f).Meets (os ++ os') Q' := by
  cases h : x.outcome with
  | error e =>
    rw [bind_of_error h]
    rw [Meets, h] at hx
    obtain ⟨os, rfl⟩ : ∃ tail, os = e :: tail := List.head?_eq_some_iff.1 hx
    exact rfl
  | ok a =>
    rw [bind_of_ok h]
    rw [Meets, h] at hx
    obtain ⟨rfl, ha⟩ := hx
    exact hf a ha

theorem Meets.mono {x : Traced ε α} {os : List ε} {Q Q' : α → Prop} (hx : x.Meets os Q)
    (h : ∀ a, Q a → Q' a) : x.Meets os Q' := by
  rw [Meets] at hx ⊢
  split at hx
  · exact ⟨hx.1, h _ hx.2⟩
  · exact hx

theorem Meets.mapError {ε' : Type} {x : Traced ε α} {os : List ε} {Q : α → Prop}
    (hx : x.Meets os Q) (f : ε → ε') : (x.mapError f).Meets (os.map f) Q := by
  rw [Meets, Traced.mapError]
  rw [Meets] at hx
  cases h : x.outcome with
  | error e =>
    rw [h] at hx
    simp [Except.mapError, hx]
  | ok a =>
    rw [h] at hx
    simpa [Except.mapError] using hx

/-- The obstacles of work on the items of a list are those of the items, in order. -/
theorem meets_mapM {f : α → Traced ε β} {os : α → List ε} {Q : α → β → Prop} {as : List α}
    (h : ∀ a ∈ as, (f a).Meets (os a) (Q a)) :
    (as.mapM f).Meets (as.flatMap os) (List.Forall₂ Q as) := by
  induction as with
  | nil => exact meets_pure .nil
  | cons a as ih =>
    rw [List.mapM_cons, List.flatMap_cons]
    have has := ih fun a' h' => h a' (List.mem_cons_of_mem a h')
    refine (h a List.mem_cons_self).bind fun b hb => ?_
    rw [← List.append_nil (as.flatMap os)]
    exact has.bind fun bs hbs => meets_pure (.cons hb hbs)

theorem Meets.outcome_eq_error_iff {x : Traced ε α} {os : List ε} {Q : α → Prop}
    (h : x.Meets os Q) {e : ε} : x.outcome = .error e ↔ os.head? = some e := by
  rw [Meets] at h
  cases hx : x.outcome with
  | error e' =>
    rw [hx] at h
    simp [h]
  | ok a =>
    rw [hx] at h
    simp [h.1]

theorem Meets.exists_ok_iff {x : Traced ε α} {os : List ε} {Q : α → Prop}
    (h : x.Meets os Q) : (∃ a, x.outcome = .ok a) ↔ os = [] := by
  rw [Meets] at h
  cases hx : x.outcome with
  | error e =>
    rw [hx] at h
    refine iff_of_false nofun ?_
    rintro rfl
    cases h
  | ok a =>
    rw [hx] at h
    exact iff_of_true ⟨a, rfl⟩ h.1

end Traced

namespace Context

variable (ctx : Context)

/-- The obstacle that the dialect has no answer to a question that comes up at `site`. -/
def missing (l : Lookup) (site : Node) : List Diagnostic :=
  match ctx.dialect.find? l with
  | some _ => []
  | none => [.report ctx.file (.unmapped ⟨ctx.dialect.name, l⟩) site]

/-- The obstacle that `value` is blank where it must show. -/
def blankness (use : Use) (value site : Node) : List Diagnostic :=
  if value.blank then [.report ctx.file (.unsupported use value.kind) site] else []

/-- The obstacle at the callee of the call `site`: it is no bare name, or else the name denotes no
method of a known type, or else the dialect lacks the method. -/
def calleeObstacles (callee site : Node) : List Diagnostic :=
  match callee with
  | .name loc id =>
    match (ctx.resolve (.name loc id)).bind Symbol.methodKey? with
    | none => [.report ctx.file (.unresolvedCall id) site]
    | some key => ctx.missing (.method key) site
  | _ => [.report ctx.file (.indirectCall callee.kind) site]

/-- The obstacle at the type of the construction `site`: it denotes no type, or else the dialect
lacks the type. -/
def typeObstacles (type site : Node) : List Diagnostic :=
  match (ctx.resolve type).bind Symbol.typeName? with
  | none => [.report ctx.file (.unresolvedType (type.ident?.getD type.kind.label)) site]
  | some name => ctx.missing (.type name) site

mutual

/-- All obstacles of an expression. -/
def obstacles : Node → List Diagnostic
  | .name .. => []
  | .literal .. => []
  | .memberAccess _ target _ _ => obstacles target
  | .assignment _ left _ right => obstacles left ++ obstacles right
  | .argument arg => argumentObstacles arg
  | .argumentList _ args => argumentsObstacles args
  | .initializer ⟨_, value⟩ => obstacles value
  | .invocation loc callee listLoc args =>
    ctx.calleeObstacles callee (.invocation loc callee listLoc args) ++ argumentsObstacles args
  | .objectCreation loc type listLoc args =>
    ctx.typeObstacles type (.objectCreation loc type listLoc args) ++ argumentsObstacles args
  | node => [.report ctx.file (.unsupported .expression node.kind) node]
termination_by structural node => node

/-- All obstacles of an argument: those of its value, then that it is blank. -/
def argumentObstacles : Argument → List Diagnostic
  | ⟨loc, value⟩ => obstacles value ++ ctx.blankness .argument value (.argument ⟨loc, value⟩)
termination_by structural arg => arg

/-- All obstacles of arguments, from left to right. -/
def argumentsObstacles : List Argument → List Diagnostic
  | [] => []
  | arg :: args => argumentObstacles arg ++ argumentsObstacles args
termination_by structural args => args

end

/-- The obstacle that a declaration declares no variable, or several. -/
def countObstacle (decl : Declaration) (site : Node) : List Diagnostic :=
  if decl.declarators.length = 1 then []
  else [.report ctx.file (.variableCount decl.declarators.length) site]

/-- All obstacles of what a variable is initialized with. -/
def initializerObstacles (v : Declarator) : List Diagnostic :=
  match v.init with
  | none => []
  | some init => ctx.obstacles init.value

/-- All obstacles of a statement. In a declaration the number of variables comes first, then the
type and then the initializers; elsewhere the expression comes first, then that it is blank. -/
def statementObstacles : Node → List Diagnostic
  | .localDeclaration loc decl =>
    ctx.countObstacle decl (.localDeclaration loc decl) ++
      (ctx.missing (.type decl.type.fullName) (.localDeclaration loc decl) ++
        decl.declarators.flatMap ctx.initializerObstacles)
  | .expressionStatement loc value =>
    ctx.obstacles value ++ ctx.blankness .statement value (.expressionStatement loc value)
  | .returnStatement _ .absent => []
  | .returnStatement loc value =>
    ctx.obstacles value ++ ctx.blankness .returnValue value (.returnStatement loc value)
  | node => [.report ctx.file (.unsupported .statement node.kind) node]

/-- The obstacle that a type of the signature of `m` has no token. -/
def signatureObstacle (m : Method) (t : TypeRef) : List Diagnostic :=
  match ctx.dialect.find? (.type t.fullName) with
  | some _ => []
  | none =>
    [.report ctx.file (.unmappedInSignature ⟨ctx.dialect.name, .type t.fullName⟩ m.name) .absent]

/-- All obstacles of a method: those of its signature, then those of its statements, each at the
place where a lowering reports it. -/
def methodObstacles (d : Definition) : List Diagnostic :=
  d.method.signatureTypes.flatMap (ctx.signatureObstacle d.method) ++
    d.body.statements.flatMap fun n => (ctx.statementObstacles n).map (.locate ctx.file n)

variable {ctx}

theorem argumentsObstacles_eq_flatMap (args : List Argument) :
    ctx.argumentsObstacles args = args.flatMap ctx.argumentObstacles := by
  induction args with
  | nil => rfl
  | cons arg args ih => rw [argumentsObstacles, List.flatMap_cons, ih]

theorem obstacles_of_not_isExpressible {n : Node} (h : n.kind.isExpressible = false) :
    ctx.obstacles n = [.report ctx.file (.unsupported .expression n.kind) n] := by
  cases n <;> first | rfl | cases h

variable (ctx) in
/-- `P` holds of each obstacle that a node has itself, those of its parts apart. -/
structure OwnObstacles (P : Diagnostic → Prop) : Prop where
  callee : ∀ loc callee listLoc args,
    ∀ o ∈ ctx.calleeObstacles callee (.invocation loc callee listLoc args), P o
  type : ∀ loc type listLoc args,
    ∀ o ∈ ctx.typeObstacles type (.objectCreation loc type listLoc args), P o
  argument : ∀ loc value, ∀ o ∈ ctx.blankness .argument value (.argument ⟨loc, value⟩), P o
  expression : ∀ n : Node, n.kind.isExpressible = false →
    P (.report ctx.file (.unsupported .expression n.kind) n)
  variableCount : ∀ loc decl, ∀ o ∈ ctx.countObstacle decl (.localDeclaration loc decl), P o
  declaredType : ∀ loc decl,
    ∀ o ∈ ctx.missing (.type decl.type.fullName) (.localDeclaration loc decl), P o
  effect : ∀ loc value, ∀ o ∈ ctx.blankness .statement value (.expressionStatement loc value), P o
  returnValue : ∀ loc value,
    ∀ o ∈ ctx.blankness .returnValue value (.returnStatement loc value), P o
  statement : ∀ n : Node, n.kind ≠ .localDeclaration → n.kind ≠ .expressionStatement →
    n.kind ≠ .returnStatement → P (.report ctx.file (.unsupported .statement n.kind) n)

namespace OwnObstacles

variable {P : Diagnostic → Prop}

theorem forall_mem_arguments (h : ctx.OwnObstacles P) {args : List Argument}
    (ih : ∀ a ∈ args, ∀ o ∈ ctx.obstacles (Argument.value a), P o) :
    ∀ o ∈ ctx.argumentsObstacles args, P o := by
  rw [argumentsObstacles_eq_flatMap, List.forall_mem_flatMap]
  rintro ⟨loc, value⟩ ha
  exact List.forall_mem_append.2 ⟨ih _ ha, h.argument loc value⟩

theorem forall_mem_expression (h : ctx.OwnObstacles P) (n : Node) : ∀ o ∈ ctx.obstacles n, P o := by
  induction n using Node.expression_induction with
  | name loc id => exact List.forall_mem_nil _
  | literal loc token => exact List.forall_mem_nil _
  | memberAccess loc target member operator ih => exact ih
  | assignment loc left operator right ihl ihr => exact List.forall_mem_append.2 ⟨ihl, ihr⟩
  | argument loc value ih => exact List.forall_mem_append.2 ⟨ih, h.argument loc value⟩
  | argumentList loc args ih => exact h.forall_mem_arguments ih
  | initializer loc value ih => exact ih
  | invocation loc callee listLoc args ih =>
    have hargs := h.forall_mem_arguments ih
    exact List.forall_mem_append.2 ⟨h.callee loc callee listLoc args, hargs⟩
  | objectCreation loc type listLoc args ih =>
    have hargs := h.forall_mem_arguments ih
    exact List.forall_mem_append.2 ⟨h.type loc type listLoc args, hargs⟩
  | other n hn =>
    rw [obstacles_of_not_isExpressible hn]
    exact List.forall_mem_singleton.2 (h.expression n hn)

/-- **What holds of the obstacles that each node has itself holds of all obstacles of a statement.**
-/
theorem forall_mem (h : ctx.OwnObstacles P) (n : Node) : ∀ o ∈ ctx.statementObstacles n, P o := by
  cases n with
  | localDeclaration loc decl =>
    have hinit (v : Declarator) : ∀ o ∈ ctx.initializerObstacles v, P o := by
      unfold initializerObstacles
      split
      · exact List.forall_mem_nil _
      · exact h.forall_mem_expression _
    rw [statementObstacles, List.forall_mem_append, List.forall_mem_append,
      List.forall_mem_flatMap]
    exact ⟨h.variableCount loc decl, h.declaredType loc decl, fun v _ => hinit v⟩
  | expressionStatement loc value =>
    exact List.forall_mem_append.2 ⟨h.forall_mem_expression value, h.effect loc value⟩
  | returnStatement loc value =>
    have hvalue := List.forall_mem_append.2 ⟨h.forall_mem_expression value, h.returnValue loc value⟩
    cases value with
    | absent => exact List.forall_mem_nil _
    | _ => exact hvalue
  | _ => exact List.forall_mem_singleton.2 (h.statement _ nofun nofun nofun)

end OwnObstacles

theorem meets_find (l : Lookup) (site : Node) :
    (ctx.find l site).Meets (ctx.missing l site) fun _ => True := by
  cases h : ctx.dialect.find? l with
  | none =>
    rw [find_of_none h, missing, h]
    exact rfl
  | some word =>
    rw [find_of_some h, missing, h]
    exact Traced.meets_pure trivial

theorem meets_calledFunction (callee site : Node) :
    (ctx.calledFunction callee site).Meets (ctx.calleeObstacles callee site) fun _ => True := by
  unfold calledFunction calledMethod
  cases callee with
  | name loc id =>
    simp only [Node.ident?, calleeObstacles]
    cases (ctx.resolve (.name loc id)).bind Symbol.methodKey? with
    | none => exact Traced.meets_fail _ _ _
    | some key => exact meets_find _ _
  | _ => exact Traced.meets_fail _ _ _

theorem meets_constructor (type site : Node) :
    (ctx.constructor type site).Meets (ctx.typeObstacles type site) fun _ => True := by
  unfold constructor constructedType typeObstacles
  cases (ctx.resolve type).bind Symbol.typeName? with
  | none => exact Traced.meets_fail _ _ _
  | some name => exact meets_find _ _

theorem meets_nonBlank {use : Use} {value site : Node} {e : Target.Expr}
    (h : e.text = "" ↔ value.blank = true) :
    (ctx.nonBlank use value site e).Meets (ctx.blankness use value site)
      fun e' => e' = e ∧ e.text ≠ "" := by
  unfold nonBlank blankness
  by_cases he : e.text = ""
  · rw [if_pos he, if_pos (h.1 he)]
    exact Traced.meets_fail _ _ _
  · rw [if_neg he, if_neg fun hb => he (h.2 hb)]
    exact Traced.meets_pure ⟨rfl, he⟩

/-- The work of lowering one argument, once its value is understood. -/
theorem meets_lowerArgument {a : Argument}
    (h : (ctx.lowerExpr a.value).Meets (ctx.obstacles a.value)
      fun e => e.text = "" ↔ a.value.blank = true) :
    (ctx.lowerArgument a).Meets (ctx.argumentObstacles a)
      fun e => (e.text = "" ↔ a.value.blank = true) ∧ e.text ≠ "" := by
  obtain ⟨loc, value⟩ := a
  rw [lowerArgument, argumentObstacles]
  refine h.bind fun e he => (meets_nonBlank he).mono ?_
  rintro _ ⟨rfl, hne⟩
  exact ⟨he, hne⟩

theorem meets_lowerArguments {args : List Argument}
    (h : ∀ a ∈ args, (ctx.lowerExpr (Argument.value a)).Meets (ctx.obstacles a.value)
      fun e => e.text = "" ↔ a.value.blank = true) :
    (ctx.lowerArguments args).Meets (ctx.argumentsObstacles args)
      (List.Forall₂ (fun _ e => e.text ≠ "") args) := by
  rw [lowerArguments_eq_mapM, argumentsObstacles_eq_flatMap]
  exact Traced.meets_mapM fun a ha => (meets_lowerArgument (h a ha)).mono fun _ he => he.2

/-- The text of an argument list shows as soon as there is an argument. -/
theorem text_sequence_eq_empty_iff {args : List Argument} {es : List Target.Expr}
    (h : List.Forall₂ (fun _ e => Target.Expr.text e ≠ "") args es) :
    (Target.Expr.sequence es).text = "" ↔ args.isEmpty = true := by
  rw [Target.Expr.text_sequence_eq_empty]
  cases h with
  | nil => simp
  | cons he hes =>
    refine iff_of_false ?_ (by simp)
    rintro (h | ⟨e', h, he'⟩)
    · cases h
    · obtain ⟨rfl, -⟩ := List.cons.inj h
      exact he he'

/-- **An expression stops at its first obstacle**, and without obstacles it comes out blank exactly
when the tree says so. -/
theorem meets_lowerExpr (n : Node) :
    (ctx.lowerExpr n).Meets (ctx.obstacles n) fun e => e.text = "" ↔ n.blank = true := by
  induction n using Node.expression_induction with
  | name loc id => exact Traced.meets_pure (by simp [Target.Expr.text, Node.blank])
  | literal loc token => exact Traced.meets_pure (by simp [Target.Expr.text, Node.blank])
  | memberAccess loc target member operator ih =>
    rw [lowerExpr, obstacles, ← List.append_nil (ctx.obstacles target)]
    refine ih.bind fun e he => Traced.meets_pure ?_
    simp [Target.Expr.text_access_eq_empty, he, Node.blank, and_assoc]
  | assignment loc left operator right ihl ihr =>
    rw [lowerExpr, obstacles, ← List.append_nil (ctx.obstacles right)]
    refine ihl.bind fun l _ => ihr.bind fun r _ => Traced.meets_pure ?_
    simp [Target.Expr.text_assign_ne_empty, Node.blank]
  | argument loc value ih =>
    exact (meets_lowerArgument (a := ⟨loc, value⟩) ih).mono fun _ he => he.1
  | argumentList loc args ih =>
    rw [lowerExpr, obstacles, ← List.append_nil (ctx.argumentsObstacles args)]
    exact (meets_lowerArguments ih).bind fun es hes =>
      Traced.meets_pure (text_sequence_eq_empty_iff hes)
  | initializer loc value ih =>
    rw [lowerExpr, obstacles, ← List.append_nil (ctx.obstacles value)]
    refine ih.bind fun e _ => Traced.meets_pure ?_
    simp [Target.Expr.text_clause_ne_empty, Node.blank]
  | invocation loc callee listLoc args ih =>
    rw [lowerExpr, obstacles, ← List.append_nil (ctx.argumentsObstacles args)]
    refine (meets_calledFunction _ _).bind fun f _ => (meets_lowerArguments ih).bind fun es _ =>
      Traced.meets_pure ?_
    simp [Target.Expr.text_call_ne_empty, Node.blank]
  | objectCreation loc type listLoc args ih =>
    rw [lowerExpr, obstacles, ← List.append_nil (ctx.argumentsObstacles args)]
    refine (meets_constructor _ _).bind fun f _ => (meets_lowerArguments ih).bind fun es _ =>
      Traced.meets_pure ?_
    simp [Target.Expr.text_call_ne_empty, Node.blank]
  | other n h =>
    rw [lowerExpr_of_not_isExpressible h, obstacles_of_not_isExpressible h]
    exact Traced.meets_fail _ _ _

/-- What comes of an expression is blank exactly when the tree says so. -/
theorem text_eq_empty_iff_blank {n : Node} {e : Target.Expr}
    (h : (ctx.lowerExpr n).outcome = .ok e) : e.text = "" ↔ n.blank = true := by
  have hmeets : (ctx.lowerExpr n).Meets _ _ := meets_lowerExpr n
  rw [Traced.Meets, h] at hmeets
  exact hmeets.2

theorem meets_lowerValue (use : Use) (value site : Node) :
    (ctx.lowerValue use value site).Meets
      (ctx.obstacles value ++ ctx.blankness use value site) fun _ => True :=
  (meets_lowerExpr value).bind fun _ he => (meets_nonBlank he).mono fun _ _ => trivial

theorem meets_lowerInitializer (loc : Location) (x : String) (init : Option Initializer) :
    (ctx.lowerInitializer init).Meets (ctx.initializerObstacles ⟨loc, x, init⟩) fun _ => True := by
  rcases init with _ | ⟨initLoc, value⟩
  · exact Traced.meets_pure trivial
  · change Traced.Meets _ (ctx.obstacles value) _
    rw [← List.append_nil (ctx.obstacles value)]
    exact (meets_lowerExpr value).bind fun e _ => Traced.meets_pure trivial

theorem meets_lowerDeclaration (decl : Declaration) (site : Node) :
    (ctx.lowerDeclaration decl site).Meets
      (ctx.countObstacle decl site ++ (ctx.missing (.type decl.type.fullName) site ++
        decl.declarators.flatMap ctx.initializerObstacles)) fun _ => True := by
  obtain ⟨declLoc, type, declarators⟩ := decl
  rcases declarators with _ | ⟨⟨varLoc, x, init⟩, _ | ⟨v, vs⟩⟩
  · exact Traced.meets_fail _ _ _
  · refine (meets_find (.type type.fullName) site).bind fun token _ => ?_
    exact (meets_lowerInitializer varLoc x init).bind fun value _ => Traced.meets_pure trivial
  · exact Traced.meets_fail _ _ _

theorem meets_lowerUnlocated (n : Node) :
    (ctx.lowerUnlocated n).Meets (ctx.statementObstacles n) fun _ => True := by
  unfold lowerUnlocated
  split
  · exact meets_lowerDeclaration _ _
  · rw [statementObstacles, ← List.append_nil (ctx.blankness _ _ _), ← List.append_assoc]
    exact (meets_lowerValue _ _ _).bind fun _ _ => Traced.meets_pure trivial
  · exact Traced.meets_pure trivial
  · rename_i loc value hne
    rw [statementObstacles, ← List.append_nil (ctx.blankness _ _ _), ← List.append_assoc]
    · exact (meets_lowerValue _ _ _).bind fun _ _ => Traced.meets_pure trivial
    · exact hne
  · rename_i h₁ h₂ h₃ h₄
    rw [statementObstacles]
    · exact Traced.meets_fail _ _ _
    all_goals assumption

theorem meets_lowerStatement (n : Node) :
    (ctx.lowerStatement n).Meets ((ctx.statementObstacles n).map (.locate ctx.file n))
      fun _ => True :=
  (meets_lowerUnlocated n).mapError _

theorem meets_lowerParameter (p : Parameter) :
    (ctx.lowerParameter p).Meets (ctx.missing (.type p.type.fullName) .absent) fun _ => True := by
  rw [lowerParameter, ← List.append_nil (ctx.missing _ _)]
  exact (meets_find _ _).bind fun _ _ => Traced.meets_pure trivial

/-- A type that has no token is reported with the name of the method. -/
theorem map_missing_eq_signatureObstacle (m : Method) (t : TypeRef) :
    (ctx.missing (.type t.fullName) .absent).map
        (fun d => .report ctx.file (d.cause.inSignature m.name) .absent) =
      ctx.signatureObstacle m t := by
  unfold missing signatureObstacle
  cases ctx.dialect.find? (.type t.fullName) <;> rfl

theorem meets_lowerSignature (m : Method) :
    (ctx.lowerSignature m).Meets (m.signatureTypes.flatMap (ctx.signatureObstacle m))
      fun _ => True := by
  have hos : m.signatureTypes.flatMap (ctx.signatureObstacle m) =
      (ctx.missing (.type m.returnType.fullName) .absent ++
        m.parameters.flatMap fun p => ctx.missing (.type p.type.fullName) .absent).map
          (fun d => .report ctx.file (d.cause.inSignature m.name) .absent) := by
    simp only [Method.signatureTypes, List.flatMap_cons, List.flatMap_map, List.map_append,
      List.map_flatMap, map_missing_eq_signatureObstacle]
  rw [hos, ← List.append_nil (m.parameters.flatMap _)]
  refine Traced.Meets.mapError ?_ _
  exact (meets_find _ _).bind fun _ _ =>
    (Traced.meets_mapM fun p _ => meets_lowerParameter p).bind fun _ _ => Traced.meets_pure trivial

/-- **A method stops at its first obstacle**, and succeeds without obstacles. -/
theorem meets_emit (d : Definition) :
    (ctx.emit d).Meets (ctx.methodObstacles d) fun _ => True := by
  have hbody : (ctx.lowerBody d.body.statements).Meets (d.body.statements.flatMap fun n =>
      (ctx.statementObstacles n).map (.locate ctx.file n))
        (List.Forall₂ (fun _ _ => True) d.body.statements) :=
    Traced.meets_mapM fun n _ => meets_lowerStatement n
  have hfunction : (ctx.lowerFunction d).Meets (ctx.methodObstacles d) fun _ => True := by
    rw [← List.nil_append (ctx.methodObstacles d), methodObstacles,
      ← List.append_nil (d.body.statements.flatMap _)]
    refine (Traced.meets_note _).bind fun _ _ => (meets_lowerSignature _).bind fun _ _ =>
      hbody.bind fun _ _ => ?_
    exact (Traced.meets_note _).bind fun _ _ => Traced.meets_pure trivial
  rw [← List.append_nil (ctx.methodObstacles d)]
  exact hfunction.bind fun _ _ => Traced.meets_pure trivial

theorem missing_eq_nil {l : Lookup} {site : Node} :
    ctx.missing l site = [] ↔ (ctx.dialect.find? l).isSome = true := by
  unfold missing
  cases ctx.dialect.find? l <;> simp

theorem signatureObstacle_eq_nil {m : Method} {t : TypeRef} :
    ctx.signatureObstacle m t = [] ↔ t.fullName ∈ ctx.dialect.types.keys := by
  rw [← Table.isSome_get?]
  unfold signatureObstacle Dialect.find?
  cases h : ctx.dialect.types.get? t.fullName <;> simp [h]

end Context

end Shading
