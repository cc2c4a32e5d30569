import Shading.Lowering.Expr

/-!
# Lowering of statements

Three kinds of statements can be lowered: the declaration of one variable, an expression for its
effect and a return. What an expression statement evaluates and what a return gives must not come
out blank. A failure without a line takes the place of the statement in which it was found.
-/

namespace Shading

namespace Context

/-- Lowers an expression that must not come out blank. -/
def lowerValue (ctx : Context) (use : Use) (value site : Node) :
    Traced Diagnostic Target.Expr := do
  let e ← ctx.lowerExpr value
  ctx.nonBlank use value site e

/-- Lowers the first value of a variable, if it has one. -/
def lowerInitializer (ctx : Context) : Option Initializer → Traced Diagnostic (Option Target.Expr)
  | none => pure none
  | some ⟨_, value⟩ => do
    -- nothing is asked of the text here: a blank value leaves the clause without an operand
    let value ← ctx.lowerExpr value
    pure (some value)

/-- Lowers a declaration, which must declare one variable, for the statement `site`. -/
def lowerDeclaration (ctx : Context) (decl : Declaration) (site : Node) :
    Traced Diagnostic Target.Statement :=
  match decl with
  | ⟨_, type, [⟨_, identifier, init⟩]⟩ => do
    let token ← ctx.find (.type type.fullName) site
    let value ← ctx.lowerInitializer init
    pure (.declare token identifier value)
  | ⟨_, _, declarators⟩ => ctx.reject (.variableCount declarators.length) site

/-- Lowers a statement and leaves failures where they were found. -/
def lowerUnlocated (ctx : Context) : Node → Traced Diagnostic Target.Statement
  | .localDeclaration loc decl => ctx.lowerDeclaration decl (.localDeclaration loc decl)
  | .expressionStatement loc value => do
    let e ← ctx.lowerValue .statement value (.expressionStatement loc value)
    pure (.effect e)
  | .returnStatement _ .absent => pure (.ret none)
  | .returnStatement loc value => do
    let e ← ctx.lowerValue .returnValue value (.returnStatement loc value)
    pure (.ret (some e))
  | node => ctx.reject (.unsupported .statement node.kind) node

/-- Lowers a statement. Bodies have no missing statements, so `absent` never comes here from a front
end; the report that it gets, like any node that is no statement, only makes the function total. -/
def lowerStatement (ctx : Context) (node : Node) : Traced Diagnostic Target.Statement :=
  (ctx.lowerUnlocated node).mapError (Diagnostic.locate ctx.file node)

/-- Lowers statements in order, up to the first that fails. -/
def lowerBody (ctx : Context) (statements : List Node) :
    Traced Diagnostic (List Target.Statement) :=
  statements.mapM ctx.lowerStatement

end Context

end Shading
