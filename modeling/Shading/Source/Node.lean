import Shading.Source.TypeRef

/-!
# Trees of method bodies

The trees that a front end hands over: every expression and statement it can produce, those that
no dialect can express included. Any of them may stand where an expression or a statement is
expected; what is accepted where is decided by the lowering, not by the type.

A missing expression is the node `absent`, which has no location.
-/

namespace Shading

/-- Where a node stands in its source text, as far as the front end knows it. -/
structure Location where
  line : Option Int
  column : Option Int
deriving DecidableEq, Inhabited, Repr

namespace Location

/-- The location of a node about which nothing is known. -/
def unknown : Location :=
  ⟨none, none⟩

end Location

/-- An identifier with its own location. -/
structure Ident where
  loc : Location
  id : String
deriving DecidableEq, Inhabited, Repr

/-- The role of a node whose exact kind the front end has no name for. -/
inductive Role where
  | node
  | expression
  | statement
deriving DecidableEq, Inhabited, Repr

mutual

/-- A node of a method body. -/
inductive Node where
  /-- No node at all. -/
  | absent
  | name (loc : Location) (id : String)
  /-- A literal, with its text exactly as written. -/
  | literal (loc : Location) (token : String)
  | memberAccess (loc : Location) (target : Node) (member : Ident) (operator : String)
  | assignment (loc : Location) (left : Node) (operator : String) (right : Node)
  | argument (arg : Argument)
  | argumentList (loc : Location) (args : List Argument)
  /-- A call; its argument list has a location of its own. -/
  | invocation (loc : Location) (callee : Node) (listLoc : Location) (args : List Argument)
  /-- The construction of a value of the type that `type` names. -/
  | objectCreation (loc : Location) (type : Node) (listLoc : Location) (args : List Argument)
  | initializer (init : Initializer)
  | binary (loc : Location) (left : Node) (operator : String) (right : Node)
  | unary (loc : Location) (operator : String) (operand : Node)
  | conditional (loc : Location) (condition whenTrue whenFalse : Node)
  | elementAccess (loc : Location) (target index : Node)
  | cast (loc : Location) (type : TypeRef) (operand : Node)
  | declarator (var : Declarator)
  | declaration (decl : Declaration)
  | localDeclaration (loc : Location) (decl : Declaration)
  | expressionStatement (loc : Location) (value : Node)
  /-- A return; one that returns nothing has the value `absent`. -/
  | returnStatement (loc : Location) (value : Node)
  | block (loc : Location) (statements : List Node)
  /-- A conditional statement; one without an alternative has `absent` for it. -/
  | ifStatement (loc : Location) (condition body alternative : Node)
  | whileStatement (loc : Location) (condition body : Node)
  | forStatement (loc : Location) (decl : Option Declaration) (condition : Node)
      (increments : List Node) (body : Node)
  /-- A node of which only the role is known. -/
  | unclassified (loc : Location) (role : Role)

/-- One argument of a call or construction. -/
structure Argument where
  loc : Location
  value : Node

/-- The part of a declarator that gives the variable its first value. -/
structure Initializer where
  loc : Location
  value : Node

/-- One declared variable. -/
structure Declarator where
  loc : Location
  identifier : String
  init : Option Initializer

/-- A declared type and the variables declared with it. -/
structure Declaration where
  loc : Location
  type : TypeRef
  declarators : List Declarator

end

instance : Inhabited Node := ⟨.absent⟩

namespace Node

/-- Where the node stands. -/
def loc : Node → Location
  | absent => .unknown
  | name loc _ | literal loc _ | memberAccess loc _ _ _ | assignment loc _ _ _
  | argument ⟨loc, _⟩ | argumentList loc _ | invocation loc _ _ _ | objectCreation loc _ _ _
  | initializer ⟨loc, _⟩ | binary loc _ _ _ | unary loc _ _ | conditional loc _ _ _
  | elementAccess loc _ _ | cast loc _ _ | declarator ⟨loc, _, _⟩ | declaration ⟨loc, _, _⟩
  | localDeclaration loc _ | expressionStatement loc _ | returnStatement loc _ | block loc _
  | ifStatement loc _ _ _ | whileStatement loc _ _ | forStatement loc _ _ _ _
  | unclassified loc _ => loc

/-- The identifier that a bare name consists of. -/
def ident? : Node → Option String
  | name _ id => some id
  | _ => none

/-- The dotted text of a name or of a chain of member accesses that starts at one. -/
def path? : Node → Option String
  | name _ id => some id
  | memberAccess _ target member _ => (path? target).map (· ++ "." ++ member.id)
  | _ => none

/-- A bare name is its own path. -/
theorem path?_of_ident? {n : Node} {id : String} (h : n.ident? = some id) :
    n.path? = some id := by
  cases n <;> simp_all [ident?, path?]

end Node

end Shading
