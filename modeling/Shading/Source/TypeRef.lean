/-!
# Names of source types

A type is written as a simple name, with the scope that declares it where one is known. A
dialect knows types and methods by one text, the qualified name.

* `qualifiedName_of_unscoped`: without a scope, or with an empty one, the name stands alone.
* `qualifiedName_of_scoped`: any other scope is set before it, divided by a dot.
-/

namespace Shading

/-- The text under which something called `name` and declared in `scope` is known. -/
def qualifiedName (scope : Option String) (name : String) : String :=
  match scope with
  | none => name
  | some s => if s = "" then name else s ++ "." ++ name

theorem qualifiedName_of_unscoped {scope : Option String} (h : scope.getD "" = "")
    (name : String) : qualifiedName scope name = name := by
  cases scope with
  | none => rfl
  | some s => exact if_pos h

theorem qualifiedName_of_scoped {s : String} (h : s ≠ "") (name : String) :
    qualifiedName (some s) name = s ++ "." ++ name :=
  if_neg h

/-- A reference to a source type: its simple name and the scope that declares it. -/
structure TypeRef where
  name : String
  scope : Option String
deriving DecidableEq, Inhabited, Repr

namespace TypeRef

/-- The key under which a dialect looks the type up. -/
def fullName (t : TypeRef) : String :=
  qualifiedName t.scope t.name

end TypeRef

end Shading
