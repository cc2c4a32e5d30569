import Shading.Symbol.Basic
import Shading.Table
import Shading.Text.Quoted

/-!
# Dialects

A dialect of a shading language is a pair of tables: one from source types to its own type
tokens, one from library methods to its own functions. It is a value: extending it gives another
one.

* `find?_extend`: what an extension defines comes before what the dialect has.
-/

namespace Shading

/-- A question to a dialect. -/
inductive Lookup where
  | type (name : String)
  | method (key : MethodKey)
deriving DecidableEq, Inhabited, Repr

namespace Lookup

/-- What is looked up, as messages call it. -/
def text : Lookup → String
  | type name => "Type '" ++ name ++ "'"
  | method key => "Function '" ++ key.path ++ "'"

end Lookup

/-- A question to which the dialect of the given name has no answer. -/
structure Unmapped where
  dialect : String
  lookup : Lookup
deriving DecidableEq, Inhabited, Repr

namespace Unmapped

/-- The message about it. -/
def text (u : Unmapped) : String :=
  u.lookup.text ++ " has no " ++ u.dialect ++ " equivalent"

end Unmapped

/-- Source types and the type tokens of a dialect. -/
abbrev TypeTable := Table String String

/-- Library methods and the functions of a dialect. -/
abbrev MethodTable := Table MethodKey String

/-- A dialect: its name in messages and what it has for types and methods. -/
structure Dialect where
  name : String
  types : TypeTable
  methods : MethodTable

/-- What is added to a dialect; either table may be missing. -/
structure Extension where
  types : Option TypeTable
  methods : Option MethodTable

namespace Dialect

instance : Inhabited Dialect := ⟨⟨"", .empty, .empty⟩⟩

/-- The word that the dialect has for a type or method. -/
def find? (d : Dialect) : Lookup → Option String
  | .type name => d.types.get? name
  | .method key => d.methods.get? key

/-- The dialect with more types and methods; a key it has already takes the new word. -/
def extend (d : Dialect) (e : Extension) : Dialect :=
  ⟨d.name, d.types.merge (e.types.getD .empty), d.methods.merge (e.methods.getD .empty)⟩

/-- A dialect in one line: its name and the sizes of its tables. -/
def summary (d : Dialect) : String :=
  "Backend(name=" ++ Text.quote d.name ++ ", types=" ++ toString d.types.size ++
    ", functions=" ++ toString d.methods.size ++ ")"

/-- The rows for types, by the names of the types. -/
def sortedTypes (d : Dialect) : List (String × String) :=
  d.types.sortedRows fun a b => a ≤ b

/-- The rows for methods, by declaring type and name. -/
def sortedMethods (d : Dialect) : List (MethodKey × String) :=
  d.methods.sortedRows MethodKey.le

@[simp] theorem name_extend (d : Dialect) (e : Extension) : (d.extend e).name = d.name := rfl

end Dialect

namespace Extension

/-- The word that an extension gives to a type or method. -/
def find? (e : Extension) : Lookup → Option String
  | .type name => e.types.bind (·.get? name)
  | .method key => e.methods.bind (·.get? key)

end Extension

namespace Dialect

/-- What an extension defines comes before what the dialect has. -/
theorem find?_extend (d : Dialect) (e : Extension) (l : Lookup) :
    (d.extend e).find? l = (e.find? l).or (d.find? l) := by
  obtain ⟨types, methods⟩ := e
  cases l with
  | type name => cases types <;> exact Table.get?_merge _ _ _
  | method key => cases methods <;> exact Table.get?_merge _ _ _

end Dialect

end Shading
