import Shading.Lowering.Function

/-!
# Tasks

The pieces of a lowering that can be asked for on their own, from one expression to a whole
function, and the text that each of them gives.
-/

namespace Shading

/-- What is to be lowered and written. -/
inductive Task where
  | expression (node : Node)
  /-- Several expressions; each has an outcome of its own. -/
  | expressions (nodes : List Node)
  /-- One statement, whose failures stay where they were found. -/
  | unlocated (indent : String) (node : Node)
  | statement (indent : String) (node : Node)
  | body (indent : String) (nodes : List Node)
  | parameters (m : Method)
  | signature (m : Method)
  | function (indent : String) (d : Definition)

/-- What a task gives. -/
inductive Task.Output where
  | text (s : String)
  | lines (ls : List String)
  | outcomes (os : List (Except Diagnostic String))

namespace Context

/-- The text of an expression. -/
def expressionText (ctx : Context) (node : Node) : Traced Diagnostic String := do
  let e ← ctx.lowerExpr node
  pure e.text

/-- Carries out a task. -/
def perform (ctx : Context) : Task → Traced Diagnostic Task.Output
  | .expression node => do
    let text ← ctx.expressionText node
    pure (.text text)
  | .expressions nodes => do
    let outcomes ← nodes.mapM fun node => (ctx.expressionText node).attempt
    pure (.outcomes outcomes)
  | .unlocated indent node => do
    let s ← ctx.lowerUnlocated node
    pure (.text (s.line indent))
  | .statement indent node => do
    let s ← ctx.lowerStatement node
    pure (.text (s.line indent))
  | .body indent nodes => do
    let ss ← ctx.lowerBody nodes
    pure (.lines (ss.map (Target.Statement.line indent)))
  | .parameters m => do
    let ps ← ctx.lowerParameters m.parameters
    pure (.text (Target.Signature.parameterText ps))
  | .signature m => do
    let s ← ctx.lowerSignature m
    pure (.text s.text)
  | .function indent d => do
    let text ← ctx.emitIndented indent d
    pure (.text text)

end Context

end Shading
