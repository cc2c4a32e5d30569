import Shading.Target.Basic

/-!
# Source text of shader functions

How the trees of a function are written. Every statement has a line of its own, and so have the
braces around them. Nothing is put in parentheses but arguments and parameters.

* `Expr.text_access_eq_empty`, `Expr.text_sequence_eq_empty`: expressions that are written as
  nothing have nothing in them; assignments, calls and clauses always show.
-/

namespace Shading.Target

/-- Items with a comma and a space between them. -/
def commaSeparated (items : List String) : String :=
  String.intercalate ", " items

mutual

/-- An expression as text. -/
def Expr.text : Expr → String
  | .word text => text
  | .access target operator member => target.text ++ operator ++ member
  | .assign left operator right => left.text ++ " " ++ operator ++ " " ++ right.text
  | .call function args => function ++ "(" ++ commaSeparated (Expr.texts args) ++ ")"
  | .clause value => "= " ++ value.text
  | .sequence items => commaSeparated (Expr.texts items)
termination_by structural e => e

/-- The texts of several expressions. -/
def Expr.texts : List Expr → List String
  | [] => []
  | e :: es => e.text :: Expr.texts es
termination_by structural es => es

end

/-- Only no item, or one that is empty itself, is written as nothing. -/
theorem commaSeparated_eq_empty {items : List String} :
    commaSeparated items = "" ↔ items = [] ∨ items = [""] := by
  rcases items with _ | ⟨a, _ | ⟨b, items⟩⟩
  · simp [commaSeparated]
  · simp [commaSeparated]
  · simp [commaSeparated, String.intercalate_cons_cons, String.append_eq_empty_iff]

namespace Expr

theorem texts_eq_map (es : List Expr) : texts es = es.map text := by
  induction es with
  | nil => rfl
  | cons e es ih => rw [texts, ih, List.map_cons]

theorem text_access_eq_empty {target : Expr} {operator member : String} :
    (access target operator member).text = "" ↔
      target.text = "" ∧ operator = "" ∧ member = "" := by
  simp [text, String.append_eq_empty_iff, and_assoc]

theorem text_sequence_eq_empty {items : List Expr} :
    (sequence items).text = "" ↔ items = [] ∨ ∃ e, items = [e] ∧ e.text = "" := by
  rw [text, commaSeparated_eq_empty, texts_eq_map]
  rcases items with _ | ⟨e, _ | ⟨e', items⟩⟩ <;> simp

theorem text_assign_ne_empty (left right : Expr) (operator : String) :
    (assign left operator right).text ≠ "" := by
  simp [text, String.append_eq_empty_iff]

theorem text_call_ne_empty (function : String) (args : List Expr) :
    (call function args).text ≠ "" := by
  simp [text, String.append_eq_empty_iff]

theorem text_clause_ne_empty (value : Expr) : (clause value).text ≠ "" := by
  simp [text, String.append_eq_empty_iff]

end Expr

namespace Statement

/-- What follows the indentation of a statement. -/
def text : Statement → String
  | declare type identifier none => type ++ " " ++ identifier ++ ";"
  | declare type identifier (some value) =>
    type ++ " " ++ identifier ++ " " ++ (Expr.clause value).text ++ ";"
  | effect value => value.text ++ ";"
  | ret none => "return;"
  | ret (some value) => "return " ++ value.text ++ ";"

/-- The line of a statement. -/
def line (indent : String) (s : Statement) : String :=
  indent ++ s.text

end Statement

namespace Parameter

/-- A parameter as text. -/
def text (p : Parameter) : String :=
  p.type ++ " " ++ p.name

end Parameter

namespace Signature

/-- The parameters as text, in order. -/
def parameterText (ps : List Parameter) : String :=
  commaSeparated (ps.map Parameter.text)

/-- The signature as text. -/
def text (s : Signature) : String :=
  s.returnType ++ " " ++ s.name ++ "(" ++ parameterText s.parameters ++ ")"

end Signature

namespace Function

/-- The lines of a function whose statements are indented by `indent`. -/
def lines (indent : String) (f : Function) : List String :=
  f.signature.text :: "\x7b" :: (f.body.map (Statement.line indent) ++ ["\x7d"])

/-- A function as text; the last line ends like all others. -/
def text (indent : String) (f : Function) : String :=
  String.intercalate "\n" (f.lines indent) ++ "\n"

end Function

end Shading.Target
