/-!
# Shader functions

The functions that methods are lowered to, as trees: what has to be said in the shading language,
before it is written down. Types and functions already have the words of the dialect.
-/

namespace Shading.Target

/-- An expression of the shading language. -/
inductive Expr where
  /-- A name or a literal. -/
  | word (text : String)
  | access (target : Expr) (operator member : String)
  | assign (left : Expr) (operator : String) (right : Expr)
  /-- A call of a function, or the construction of a value of a type. -/
  | call (function : String) (args : List Expr)
  /-- The clause that gives a variable its first value. -/
  | clause (value : Expr)
  /-- Arguments that are in no call. -/
  | sequence (items : List Expr)

instance : Inhabited Expr := ⟨.word ""⟩

/-- A statement of the shading language. -/
inductive Statement where
  | declare (type identifier : String) (value : Option Expr)
  | effect (value : Expr)
  | ret (value : Option Expr)

/-- A parameter, with the token of its type. -/
structure Parameter where
  type : String
  name : String
deriving DecidableEq, Inhabited, Repr

/-- What stands before the body of a function. -/
structure Signature where
  returnType : String
  name : String
  parameters : List Parameter
deriving DecidableEq, Inhabited, Repr

/-- A complete function. -/
structure Function where
  signature : Signature
  body : List Statement

end Shading.Target
