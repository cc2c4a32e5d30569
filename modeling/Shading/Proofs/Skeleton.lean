import Shading.Proofs.Lowering

/-!
# Skeletons

What a method says in a shading language, told from its tree, the tables of the dialect and the
answers of the resolver: the words for its types, the names in it, what is assigned to what, and
what is called with what. It is told without lowering or writing anything, and where something has
no word there is none.

* `Context.functionFor?`, `Context.typeFor?`: the words for what a name or a node denotes.
* `Context.exprSkeleton?`, `Context.statementSkeleton?`, `Context.skeleton?`: the skeletons of
  expressions, statements and methods.
* `Context.exprSkeleton?_of_lowerExpr`: **an expression is lowered to its skeleton.**
* `Context.skeleton?_of_lowerFunction`: **a method is lowered to its skeleton.**
-/

namespace Shading

/-- Where each item of a list has a value, the list has the values of its items. -/
theorem mapM_eq_some_of_forall₂ {α β : Type} {f : α → Option β} {as : List α} {bs : List β}
    (h : List.Forall₂ (fun a b => f a = some b) as bs) : as.mapM f = some bs := by
  induction h with
  | nil => rfl
  | cons ha _ ih =>
    rw [List.mapM_cons, ha, ih]
    rfl

namespace Context

section Definitions

variable (ctx : Context)

/-- The dialect's function for the method that a bare name denotes, if the declaring type of the
method has a name. -/
def functionFor? : Node → Option String
  | .name loc id =>
    match ctx.resolve (.name loc id) with
    | some ⟨name, .method, some container, _⟩ =>
      if container = "" then none else ctx.dialect.methods.get? ⟨container, name⟩
    | _ => none
  | _ => none

/-- The dialect's token for the type that a node denotes. -/
def typeFor? (n : Node) : Option String :=
  match ctx.resolve n with
  | some ⟨name, .type, _, scope⟩ => ctx.dialect.types.get? (qualifiedName scope name)
  | _ => none

mutual

/-- The skeleton of an expression. -/
def exprSkeleton? : Node → Option Target.Expr
  | .name _ id => some (.word id)
  | .literal _ token => some (.word token)
  | .memberAccess _ target member operator => do
    let target ← exprSkeleton? target
    some (.access target operator member.id)
  | .assignment _ left operator right => do
    let left ← exprSkeleton? left
    let right ← exprSkeleton? right
    some (.assign left operator right)
  | .argument arg => argumentSkeleton? arg
  | .argumentList _ args => do
    let items ← argumentSkeletons? args
    some (.sequence items)
  | .initializer ⟨_, value⟩ => do
    let value ← exprSkeleton? value
    some (.clause value)
  | .invocation _ callee _ args => do
    let function ← ctx.functionFor? callee
    let args ← argumentSkeletons? args
    some (.call function args)
  | .objectCreation _ type _ args => do
    let token ← ctx.typeFor? type
    let args ← argumentSkeletons? args
    some (.call token args)
  | _ => none
termination_by structural node => node

/-- The skeleton of an argument is that of its value. -/
def argumentSkeleton? : Argument → Option Target.Expr
  | ⟨_, value⟩ => exprSkeleton? value
termination_by structural arg => arg

/-- The skeletons of arguments in order. -/
def argumentSkeletons? : List Argument → Option (List Target.Expr)
  | [] => some []
  | arg :: args => do
    let e ← argumentSkeleton? arg
    let es ← argumentSkeletons? args
    some (e :: es)
termination_by structural args => args

end

/-- The skeleton of a statement: a declaration of one variable with its type and first value, an
expression for its effect, or a return. -/
def statementSkeleton? : Node → Option Target.Statement
  | .localDeclaration _ ⟨_, type, [⟨_, x, none⟩]⟩ => do
    let token ← ctx.dialect.types.get? type.fullName
    some (.declare token x none)
  | .localDeclaration _ ⟨_, type, [⟨_, x, some ⟨_, value⟩⟩]⟩ => do
    let token ← ctx.dialect.types.get? type.fullName
    let value ← ctx.exprSkeleton? value
    some (.declare token x (some value))
  | .expressionStatement _ value => do
    let value ← ctx.exprSkeleton? value
    some (.effect value)
  | .returnStatement _ .absent => some (.ret none)
  | .returnStatement _ value => do
    let value ← ctx.exprSkeleton? value
    some (.ret (some value))
  | _ => none

/-- The skeleton of a parameter: the token of its type, and its name. -/
def parameterSkeleton? (p : Parameter) : Option Target.Parameter := do
  let token ← ctx.dialect.types.get? p.type.fullName
  some ⟨token, p.name⟩

/-- The skeleton of a method: the token of the type it returns, its name, and the skeletons of its
parameters and of its statements in order. -/
def skeleton? (d : Definition) : Option Target.Function := do
  let token ← ctx.dialect.types.get? d.method.returnType.fullName
  let parameters ← d.method.parameters.mapM ctx.parameterSkeleton?
  let statements ← d.body.statements.mapM ctx.statementSkeleton?
  some ⟨⟨token, d.method.name, parameters⟩, statements⟩

end Definitions

variable {ctx : Context}

/-- What is looked up for a call is the function for what its callee denotes. -/
theorem functionFor?_of_calledFunction {callee site : Node} {f : String}
    (h : (ctx.calledFunction callee site).outcome = .ok f) : ctx.functionFor? callee = some f := by
  rw [calledFunction] at h
  cases hkey : ctx.calledMethod callee site with
  | error d =>
    rw [hkey] at h
    cases h
  | ok key =>
    rw [hkey] at h
    have hword : ctx.dialect.find? (.method key) = some f := outcome_find_eq_ok.1 h
    obtain ⟨hname, hdenotes⟩ := calledMethod_eq_ok.1 hkey
    obtain ⟨⟨name, _, container, scope⟩, hs, hmethod⟩ := Option.bind_eq_some_iff.1 hdenotes
    obtain ⟨rfl, rfl, hcontainer, rfl⟩ := Symbol.methodKey?_eq_some.1 hmethod
    cases callee with
    | name loc id =>
      simp only [functionFor?, hs, if_neg hcontainer]
      exact hword
    | _ => cases hname

/-- What is looked up for a construction is the token for what its type denotes. -/
theorem typeFor?_of_constructor {type site : Node} {token : String}
    (h : (ctx.constructor type site).outcome = .ok token) : ctx.typeFor? type = some token := by
  rw [constructor] at h
  cases hname : ctx.constructedType type site with
  | error d =>
    rw [hname] at h
    cases h
  | ok name =>
    rw [hname] at h
    have hword : ctx.dialect.find? (.type name) = some token := outcome_find_eq_ok.1 h
    have hdenotes := constructedType_eq_ok.1 hname
    obtain ⟨⟨_, _, container, scope⟩, hs, htype⟩ := Option.bind_eq_some_iff.1 hdenotes
    obtain ⟨rfl, rfl⟩ := Symbol.typeName?_eq_some.1 htype
    simp only [typeFor?, hs]
    exact hword

theorem argumentSkeletons?_eq_mapM (args : List Argument) :
    ctx.argumentSkeletons? args = args.mapM ctx.argumentSkeleton? := by
  induction args with
  | nil => rfl
  | cons arg args ih =>
    rw [argumentSkeletons?, List.mapM_cons, ih]
    rfl

/-- Arguments are lowered to their skeletons if their values are. -/
theorem argumentSkeletons?_of_lowerArguments {args : List Argument} {es : List Target.Expr}
    (ih : ∀ a ∈ args, ∀ e, (ctx.lowerExpr (Argument.value a)).outcome = .ok e →
      ctx.exprSkeleton? a.value = some e)
    (h : (ctx.lowerArguments args).outcome = .ok es) : ctx.argumentSkeletons? args = some es := by
  have hrow := (List.forall₂_and_left args es).2 ⟨ih, outcome_lowerArguments_eq_ok.1 h⟩
  rw [argumentSkeletons?_eq_mapM]
  refine mapM_eq_some_of_forall₂ (hrow.imp ?_)
  rintro ⟨loc, value⟩ e ⟨hvalue, he, -⟩
  exact hvalue e he

/-- **An expression is lowered to its skeleton.** -/
theorem exprSkeleton?_of_lowerExpr {n : Node} {e : Target.Expr}
    (h : (ctx.lowerExpr n).outcome = .ok e) : ctx.exprSkeleton? n = some e := by
  induction n using Node.expression_induction generalizing e with
  | name loc id =>
    obtain rfl := outcome_lowerExpr_name_eq_ok.1 h
    rfl
  | literal loc token =>
    obtain rfl := outcome_lowerExpr_literal_eq_ok.1 h
    rfl
  | memberAccess loc target member operator ih =>
    obtain ⟨t, ht, rfl⟩ := outcome_lowerExpr_memberAccess_eq_ok.1 h
    rw [exprSkeleton?, ih ht]
    rfl
  | assignment loc left operator right ihl ihr =>
    obtain ⟨l, r, hl, hr, rfl⟩ := outcome_lowerExpr_assignment_eq_ok.1 h
    rw [exprSkeleton?, ihl hl, ihr hr]
    rfl
  | argument loc value ih =>
    obtain ⟨he, -⟩ := outcome_lowerExpr_argument_eq_ok.1 h
    exact ih he
  | argumentList loc args ih =>
    obtain ⟨es, hes, rfl⟩ := outcome_lowerExpr_argumentList_eq_ok.1 h
    rw [exprSkeleton?, argumentSkeletons?_of_lowerArguments (fun a ha _ => ih a ha) hes]
    rfl
  | initializer loc value ih =>
    obtain ⟨v, hv, rfl⟩ := outcome_lowerExpr_initializer_eq_ok.1 h
    rw [exprSkeleton?, ih hv]
    rfl
  | invocation loc callee listLoc args ih =>
    obtain ⟨f, es, hf, hes, rfl⟩ := outcome_lowerExpr_invocation_eq_ok.1 h
    rw [exprSkeleton?, functionFor?_of_calledFunction hf,
      argumentSkeletons?_of_lowerArguments (fun a ha _ => ih a ha) hes]
    rfl
  | objectCreation loc type listLoc args ih =>
    obtain ⟨f, es, hf, hes, rfl⟩ := outcome_lowerExpr_objectCreation_eq_ok.1 h
    rw [exprSkeleton?, typeFor?_of_constructor hf,
      argumentSkeletons?_of_lowerArguments (fun a ha _ => ih a ha) hes]
    rfl
  | other n hn => exact absurd h (outcome_lowerExpr_ne_ok hn e)

/-- A statement is lowered to its skeleton. -/
theorem statementSkeleton?_of_lowering {n : Node} {s : Target.Statement}
    (h : StatementLowering ctx n s) : ctx.statementSkeleton? n = some s := by
  cases h with
  | declaration htoken =>
    have htype : ctx.dialect.types.get? _ = some _ := htoken
    rw [statementSkeleton?, htype]
    rfl
  | initialization htoken he =>
    have htype : ctx.dialect.types.get? _ = some _ := htoken
    rw [statementSkeleton?, htype, exprSkeleton?_of_lowerExpr he]
    rfl
  | effect he _ =>
    rw [statementSkeleton?, exprSkeleton?_of_lowerExpr he]
    rfl
  | returnNothing => rfl
  | returnValue he _ =>
    -- nothing is no expression
    rw [statementSkeleton?, exprSkeleton?_of_lowerExpr he]
    · rfl
    · rintro rfl
      cases he

/-- **A method is lowered to its skeleton.** -/
theorem skeleton?_of_lowerFunction {d : Definition} {f : Target.Function}
    (h : (ctx.lowerFunction d).outcome = .ok f) : ctx.skeleton? d = some f := by
  obtain ⟨hsignature, hbody⟩ := outcome_lowerFunction_eq_ok.1 h
  obtain ⟨htoken, hname, hparameters⟩ := outcome_lowerSignature_eq_ok.1 hsignature
  have htype : ctx.dialect.types.get? d.method.returnType.fullName =
      some f.signature.returnType := htoken
  have hps : d.method.parameters.mapM ctx.parameterSkeleton? = some f.signature.parameters := by
    refine mapM_eq_some_of_forall₂ (hparameters.imp ?_)
    rintro p ⟨token, name⟩ ⟨hfind, rfl⟩
    have hword : ctx.dialect.types.get? p.type.fullName = some token := hfind
    rw [parameterSkeleton?, hword]
    rfl
  have hstatements : d.body.statements.mapM ctx.statementSkeleton? = some f.body := by
    refine mapM_eq_some_of_forall₂ ((outcome_lowerBody_eq_ok.1 hbody).imp ?_)
    intro n s hs
    exact statementSkeleton?_of_lowering (.of_lowerStatement hs)
  rw [skeleton?, htype, hps, hstatements, ← hname]
  rfl

end Context

end Shading
