import Shading.Dialect.Builtin
import Shading.Trace
import Shading.UsageError

/-!
# Choosing a dialect

A dialect is chosen by name or described by its tables, and then extended in turn. Whatever is
given in place of a name chooses nothing, but is shown in the error.

* `find?_extendAll`: after a chain of extensions the last one that has a key gives its word.
-/

namespace Shading

/-- What may be given where the name of a built-in dialect is expected. -/
inductive Selector where
  | text (name : String)
  | number (n : Int)
  | flag (b : Bool)
  | nothing
deriving DecidableEq, Inhabited, Repr

namespace Selector

/-- The selector as messages show it. -/
def shown : Selector → String
  | text name => name
  | number n => toString n
  | flag true => "True"
  | flag false => "False"
  | nothing => "None"

/-- The dialect that is chosen. -/
def dialect? : Selector → Option Dialect
  | text "HLSL" => some .hlsl
  | text "GLSL" => some .glsl
  | _ => none

end Selector

namespace Dialect

/-- Makes a built-in dialect, which is recorded. -/
def create (s : Selector) : Traced UsageError Dialect :=
  match s.dialect? with
  | none => .fail (.unsupportedDialect s.shown)
  | some d => do
    .note (.dialectCreated d.name d.types.size d.methods.size)
    pure d

/-- The dialect with each of the extensions in turn. -/
def extendAll (d : Dialect) (es : List Extension) : Dialect :=
  es.foldl extend d

@[simp] theorem name_extendAll (d : Dialect) (es : List Extension) :
    (d.extendAll es).name = d.name := by
  induction es generalizing d with
  | nil => rfl
  | cons e es ih => exact ih (d.extend e)

/-- After a chain of extensions the last one that has a key gives its word. -/
theorem find?_extendAll (d : Dialect) (es : List Extension) (l : Lookup) :
    (d.extendAll es).find? l = (es.reverse.findSome? (·.find? l)).or (d.find? l) := by
  induction es generalizing d with
  | nil => rfl
  | cons e es ih =>
    have step : (d.extendAll (e :: es)).find? l = ((d.extend e).extendAll es).find? l := rfl
    rw [step, ih, find?_extend, List.reverse_cons, List.findSome?_append, Option.or_assoc]
    simp

end Dialect

/-- Where a recipe starts. -/
inductive Base where
  | builtin (s : Selector)
  | described (d : Dialect)

/-- How a dialect is made: a start and the extensions of it, in order. -/
structure Recipe where
  base : Base
  extensions : List Extension

namespace Recipe

/-- Makes the dialect. -/
def build (r : Recipe) : Traced UsageError Dialect := do
  let d ← match r.base with
    | .builtin s => Dialect.create s
    | .described d => pure d
  pure (d.extendAll r.extensions)

end Recipe

end Shading
