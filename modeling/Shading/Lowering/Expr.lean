import Shading.Lowering.Context
import Shading.Target.Printer

/-!
# Lowering of expressions

The target expression of a node. Names and literals stand for themselves; calls and constructions
become calls under the words of the dialect. The parts of an expression are lowered from left to
right, after the callee or constructed type is known, and the first failure ends the work. An
argument must not come out blank, that is, be written as nothing.
-/

namespace Shading

namespace Context

/-- Lets `e`, which `value` came out as, pass unless it is written as nothing. -/
def nonBlank (ctx : Context) (use : Use) (value site : Node) (e : Target.Expr) :
    Traced Diagnostic Target.Expr :=
  if e.text = "" then ctx.reject (.unsupported use value.kind) site else pure e

/-- The dialect's function for the call `site` through `callee`. -/
def calledFunction (ctx : Context) (callee site : Node) : Traced Diagnostic String :=
  match ctx.calledMethod callee site with
  | .error d => .fail d
  | .ok key => ctx.find (.method key) site

/-- The dialect's constructor for the construction `site` of `type`. -/
def constructor (ctx : Context) (type site : Node) : Traced Diagnostic String :=
  match ctx.constructedType type site with
  | .error d => .fail d
  | .ok name => ctx.find (.type name) site

mutual

/-- Lowers a node to an expression. -/
def lowerExpr (ctx : Context) : Node → Traced Diagnostic Target.Expr
  | .name _ id => pure (.word id)
  | .literal _ token => pure (.word token)
  | .memberAccess _ target member operator => do
    let target ← ctx.lowerExpr target
    pure (.access target operator member.id)
  | .assignment _ left operator right => do
    let left ← ctx.lowerExpr left
    let right ← ctx.lowerExpr right
    pure (.assign left operator right)
  | .argument arg => ctx.lowerArgument arg
  | .argumentList _ args => do
    let items ← ctx.lowerArguments args
    pure (.sequence items)
  | .initializer ⟨_, value⟩ => do
    let value ← ctx.lowerExpr value
    pure (.clause value)
  | .invocation loc callee listLoc args => do
    let function ← ctx.calledFunction callee (.invocation loc callee listLoc args)
    let args ← ctx.lowerArguments args
    pure (.call function args)
  | .objectCreation loc type listLoc args => do
    let function ← ctx.constructor type (.objectCreation loc type listLoc args)
    let args ← ctx.lowerArguments args
    pure (.call function args)
  | node => ctx.reject (.unsupported .expression node.kind) node
termination_by structural node => node

/-- Lowers one argument. -/
def lowerArgument (ctx : Context) : Argument → Traced Diagnostic Target.Expr
  | ⟨loc, value⟩ => do
    let e ← ctx.lowerExpr value
    ctx.nonBlank .argument value (.argument ⟨loc, value⟩) e
termination_by structural arg => arg

/-- Lowers arguments in order. -/
def lowerArguments (ctx : Context) : List Argument → Traced Diagnostic (List Target.Expr)
  | [] => pure []
  | arg :: args => do
    let e ← ctx.lowerArgument arg
    let es ← ctx.lowerArguments args
    pure (e :: es)
termination_by structural args => args

end

end Context

end Shading
