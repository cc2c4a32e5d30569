import Shading.Session

/-!
# Courses of sessions

Steps that are taken one after the other, and what a single step can do to the dialects that a
session keeps.

* `Session.after_append`, `Session.answers_append`: a course of steps in two parts.
* `Session.withStored_induction`: what is stored under a name is used, or else the step is refused
  and changes nothing.
* `Session.step_of_asks`: a step that only asks leaves the session as it is.
-/

namespace Shading

namespace Step

/-- Whether the step only asks about what is stored. -/
def asks : Step → Bool
  | ask .. | findSymbol .. | resolve .. | showDiagnostic _ => true
  | _ => false

end Step

namespace Session

variable (s : Session)

@[simp] theorem after_nil : s.after [] = s := rfl

@[simp] theorem after_cons (st : Step) (steps : List Step) :
    s.after (st :: steps) = (s.step st).1.after steps := rfl

theorem after_append (steps steps' : List Step) :
    s.after (steps ++ steps') = (s.after steps).after steps' :=
  List.foldl_append

@[simp] theorem answers_nil : s.answers [] = [] := rfl

@[simp] theorem answers_cons (st : Step) (steps : List Step) :
    s.answers (st :: steps) = (s.step st).2 :: (s.step st).1.answers steps := rfl

/-- The second part of a course is answered in the session that the first part leaves. -/
theorem answers_append (steps steps' : List Step) :
    s.answers (steps ++ steps') = s.answers steps ++ (s.after steps).answers steps' := by
  induction steps generalizing s with
  | nil => rfl
  | cons st steps ih =>
    rw [List.cons_append, answers_cons, answers_cons, ih, after_cons, List.cons_append]

/-- Every step has its answer. -/
@[simp] theorem length_answers (steps : List Step) : (s.answers steps).length = steps.length := by
  induction steps generalizing s with
  | nil => rfl
  | cons st steps ih => rw [answers_cons, List.length_cons, ih, List.length_cons]

variable {s}

theorem withStored_of_none {α : Type} {t : Table String α} {name : String}
    (h : t.get? name = none) (f : α → Session × Traced Failure Answer) :
    s.withStored t name f = (s, .fail (.unknownName name)) := by
  rw [withStored, h]

theorem withStored_of_some {α : Type} {t : Table String α} {name : String} {a : α}
    (h : t.get? name = some a) (f : α → Session × Traced Failure Answer) :
    s.withStored t name f = f a := by
  rw [withStored, h]

/-- What holds of a session, and of whatever it becomes when something stored is used, holds of it
after a step that uses what is stored under a name. -/
theorem withStored_induction {α : Type} {t : Table String α} {name : String}
    {f : α → Session × Traced Failure Answer} {P : Session → Prop} (hs : P s)
    (hf : ∀ a, P (f a).1) : P (s.withStored t name f).1 := by
  unfold withStored
  cases t.get? name with
  | none => exact hs
  | some a => exact hf a

/-- **A step that only asks leaves the session as it is**, whether it is answered or refused. -/
theorem step_of_asks {st : Step} (h : st.asks = true) : (s.step st).1 = s := by
  cases st with
  | ask dialect table query => exact withStored_induction (P := (· = s)) rfl fun _ => rfl
  | findSymbol table id => rfl
  | resolve table resolution node => rfl
  | showDiagnostic diagnostic => exact withStored_induction (P := (· = s)) rfl fun _ => rfl
  | _ => cases h

end Session

end Shading
