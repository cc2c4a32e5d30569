import Shading.Source.Node

/-!
# Kinds of nodes

Messages call a node by its kind. A missing node has a kind of its own.
-/

namespace Shading

/-- What a node is, its parts apart. -/
inductive Kind where
  | absent
  | name
  | literal
  | memberAccess
  | assignment
  | argument
  | argumentList
  | invocation
  | objectCreation
  | initializer
  | binary
  | unary
  | conditional
  | elementAccess
  | cast
  | declarator
  | declaration
  | localDeclaration
  | expressionStatement
  | returnStatement
  | block
  | ifStatement
  | whileStatement
  | forStatement
  | unclassified (role : Role)
deriving DecidableEq, Inhabited, Repr

namespace Kind

/-- The word for the kind in messages. -/
def label : Kind → String
  | absent => "NoneType"
  | name => "Name"
  | literal => "Literal"
  | memberAccess => "MemberAccess"
  | assignment => "Assignment"
  | argument => "Argument"
  | argumentList => "ArgumentList"
  | invocation => "Invocation"
  | objectCreation => "ObjectCreation"
  | initializer => "EqualsValueClause"
  | binary => "BinaryExpression"
  | unary => "UnaryExpression"
  | conditional => "ConditionalExpression"
  | elementAccess => "ElementAccess"
  | cast => "CastExpression"
  | declarator => "VariableDeclarator"
  | declaration => "VariableDeclaration"
  | localDeclaration => "LocalDeclaration"
  | expressionStatement => "ExpressionStatement"
  | returnStatement => "ReturnStatement"
  | block => "Block"
  | ifStatement => "IfStatement"
  | whileStatement => "WhileStatement"
  | forStatement => "ForStatement"
  | unclassified .node => "Node"
  | unclassified .expression => "Expr"
  | unclassified .statement => "Stmt"

end Kind

namespace Node

/-- The kind of a node. -/
def kind : Node → Kind
  | absent => .absent
  | name .. => .name
  | literal .. => .literal
  | memberAccess .. => .memberAccess
  | assignment .. => .assignment
  | argument _ => .argument
  | argumentList .. => .argumentList
  | invocation .. => .invocation
  | objectCreation .. => .objectCreation
  | initializer _ => .initializer
  | binary .. => .binary
  | unary .. => .unary
  | conditional .. => .conditional
  | elementAccess .. => .elementAccess
  | cast .. => .cast
  | declarator _ => .declarator
  | declaration _ => .declaration
  | localDeclaration .. => .localDeclaration
  | expressionStatement .. => .expressionStatement
  | returnStatement .. => .returnStatement
  | block .. => .block
  | ifStatement .. => .ifStatement
  | whileStatement .. => .whileStatement
  | forStatement .. => .forStatement
  | unclassified _ role => .unclassified role

/-- Only a missing node is of the kind `absent`. -/
theorem kind_eq_absent {n : Node} : n.kind = .absent ↔ n = .absent := by
  cases n <;> simp [kind]

/-- A node is a bare name exactly when it is of that kind. -/
theorem isSome_ident? {n : Node} : n.ident?.isSome = true ↔ n.kind = .name := by
  cases n <;> simp [kind, ident?]

end Node

end Shading
