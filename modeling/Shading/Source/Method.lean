import Shading.Source.Node

/-!
# Methods

What is lowered: the descriptor of a method and the statements of its body.
-/

namespace Shading

/-- A declared parameter. -/
structure Parameter where
  name : String
  type : TypeRef
deriving DecidableEq, Inhabited, Repr

/-- The descriptor of a method: its name, the type it returns and its parameters in order. -/
structure Method where
  name : String
  returnType : TypeRef
  parameters : List Parameter
deriving DecidableEq, Inhabited, Repr

namespace Method

/-- Every type that the signature mentions, in the order in which it is read. -/
def signatureTypes (m : Method) : List TypeRef :=
  m.returnType :: m.parameters.map Parameter.type

end Method

/-- The body of a method: a block, or the bare list of its statements. -/
inductive Body where
  | block (loc : Location) (statements : List Node)
  | bare (statements : List Node)

namespace Body

/-- The statements of a body in order. -/
def statements : Body → List Node
  | block _ statements | bare statements => statements

end Body

/-- A method with its body: the unit of work. -/
structure Definition where
  method : Method
  body : Body

end Shading
