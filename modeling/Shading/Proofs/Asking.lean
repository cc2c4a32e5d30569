import Shading.Proofs.Session

/-!
# Questions leave no trace

Lowering, looking something up and showing something are questions to a session. Whatever is
answered, nothing later depends on their having been asked: a course of steps may be rewritten by
leaving questions out or by asking them again, and questions that stand side by side may change
places.

* `Edit`: a step in such a rewriting.
* `Session.after_rewritten`: the session comes to the same.
* `Session.answers_swap`: two questions in the other order get the same answers in that order.
* `Session.questions_leave_no_trace`: **every other step is answered as before.**
-/

namespace Shading

/-- A step of a course that is rewritten: it is kept, or it is taken this number of times, which may
be zero. -/
inductive Edit where
  | kept (st : Step)
  | copied (st : Step) (copies : Nat)

namespace Edit

/-- The step before the rewriting. -/
def original : Edit → Step
  | kept st | copied st _ => st

/-- The steps that stand in its place after the rewriting. -/
def rewritten : Edit → List Step
  | kept st => [st]
  | copied st copies => List.replicate copies st

/-- Only questions are left out or taken several times. -/
def OfQuestion : Edit → Prop
  | kept _ => True
  | copied st _ => st.asks = true

end Edit

namespace Session

variable {s : Session}

/-- Questions leave the session as it is, however many there are. -/
theorem after_replicate {st : Step} (h : st.asks = true) (copies : Nat) :
    s.after (List.replicate copies st) = s := by
  induction copies with
  | zero => rfl
  | succ copies ih => rw [List.replicate_succ, after_cons, step_of_asks h, ih]

/-- A step and what stands in its place leave the same session. -/
theorem after_edit {edit : Edit} (h : edit.OfQuestion) :
    s.after edit.rewritten = (s.step edit.original).1 := by
  cases edit with
  | kept st => rfl
  | copied st copies =>
    have hst : st.asks = true := h
    have hstep : (s.step (Edit.copied st copies).original).1 = s := step_of_asks hst
    rw [hstep]
    exact after_replicate hst copies

/-- **A rewritten course comes to the same session.** -/
theorem after_rewritten {edits : List Edit} (h : ∀ edit ∈ edits, edit.OfQuestion) :
    s.after (edits.flatMap Edit.rewritten) = s.after (edits.map Edit.original) := by
  induction edits generalizing s with
  | nil => rfl
  | cons edit edits ih =>
    obtain ⟨hfirst, hrest⟩ := List.forall_mem_cons.1 h
    rw [List.flatMap_cons, after_append, after_edit hfirst, ih hrest, List.map_cons, after_cons]

/-- What stands behind the answers to the steps before it is the answer to a step. -/
theorem getElem?_answers_append_cons (s : Session) (before later : List Step) (st : Step) :
    (s.answers (before ++ st :: later))[before.length]? = some ((s.after before).step st).2 := by
  have hlength : (s.answers before).length = before.length := s.length_answers before
  rw [answers_append, answers_cons, ← hlength, List.getElem?_append_right (Nat.le_refl _),
    Nat.sub_self, List.getElem?_cons_zero]

/-- A step that is kept is answered as before, each time behind what stands before it. -/
theorem getElem?_answers_rewritten {edits before later : List Edit} {st : Step}
    (h : ∀ edit ∈ edits, edit.OfQuestion) (hsplit : edits = before ++ .kept st :: later) :
    (s.answers (edits.flatMap Edit.rewritten))[(before.flatMap Edit.rewritten).length]? =
      (s.answers (edits.map Edit.original))[before.length]? := by
  subst hsplit
  obtain ⟨hbefore, -⟩ := List.forall_mem_append.1 h
  have hsession : s.after (before.flatMap Edit.rewritten) = s.after (before.map Edit.original) :=
    after_rewritten hbefore
  have hrewritten : (before ++ .kept st :: later).flatMap Edit.rewritten =
      before.flatMap Edit.rewritten ++ st :: later.flatMap Edit.rewritten := by
    rw [List.flatMap_append, List.flatMap_cons]
    rfl
  have horiginal : (before ++ .kept st :: later).map Edit.original =
      before.map Edit.original ++ st :: later.map Edit.original := by
    rw [List.map_append, List.map_cons]
    rfl
  have hlength : before.length = (before.map Edit.original).length := by
    rw [List.length_map]
  rw [hrewritten, horiginal, getElem?_answers_append_cons, hlength, getElem?_answers_append_cons,
    hsession]

/-- **Two questions side by side may change places.** -/
theorem answers_swap {st st' : Step} (h : st.asks = true) (h' : st'.asks = true)
    (before later : List Step) :
    ∃ xs x x' ys, xs.length = before.length ∧
      s.answers (before ++ st :: st' :: later) = xs ++ x :: x' :: ys ∧
      s.answers (before ++ st' :: st :: later) = xs ++ x' :: x :: ys := by
  let s' := s.after before
  refine ⟨s.answers before, (s'.step st).2, (s'.step st').2, s'.answers later,
    s.length_answers before, ?_, ?_⟩
  · rw [answers_append, answers_cons, answers_cons, step_of_asks h, step_of_asks h']
  · rw [answers_append, answers_cons, answers_cons, step_of_asks h', step_of_asks h]

/-- **Questions leave no trace.** Leave some of the questions of a course out, or ask them any number
of times in their places: all other steps get the answers that they got before, and the session comes
to the same. And two questions that stand side by side change places together with their answers. -/
theorem questions_leave_no_trace (s : Session) :
    (∀ edits : List Edit, (∀ edit ∈ edits, edit.OfQuestion) →
      s.after (edits.flatMap Edit.rewritten) = s.after (edits.map Edit.original) ∧
      ∀ before st later, edits = before ++ .kept st :: later →
        ∃ answer, (s.answers (edits.map Edit.original))[before.length]? = some answer ∧
          (s.answers (edits.flatMap Edit.rewritten))[(before.flatMap Edit.rewritten).length]? =
            some answer) ∧
    ∀ before st st' later, st.asks = true → st'.asks = true →
      ∃ xs x x' ys, xs.length = before.length ∧
        s.answers (before ++ st :: st' :: later) = xs ++ x :: x' :: ys ∧
        s.answers (before ++ st' :: st :: later) = xs ++ x' :: x :: ys := by
  refine ⟨fun edits h => ⟨after_rewritten h, fun before st later hsplit => ?_⟩, ?_⟩
  · have hlt : before.length < (s.answers (edits.map Edit.original)).length := by
      rw [length_answers, List.length_map, hsplit, List.length_append, List.length_cons]
      omega
    refine ⟨_, List.getElem?_eq_getElem hlt, ?_⟩
    rw [getElem?_answers_rewritten h hsplit, List.getElem?_eq_getElem hlt]
  · intro before st st' later h h'
    exact answers_swap h h' before later

/-- A lowering that fails is left out and a look-up is made three times; the dialect that is stored
afterwards is shown as before, and so are its words. The two questions may change places. -/
theorem failed_lowering_left_out :
    let toy : Dialect := ⟨"Toy", .ofList [("float", "float")], .empty⟩
    let negation : Node := .unary .unknown "-" (.name .unknown "a")
    let lowering : Step := .ask "toy" "main" (.emit .identifiers (.expression negation))
    let word : Step := .ask "toy" "main" (.word (.type "float"))
    let real : Extension := ⟨some (.ofList [("float", "real")]), none⟩
    let edits : List Edit := [.kept (.draft "base" toy), .kept (.adopt "toy" "base"),
      .copied lowering 0, .copied word 3, .kept (.extend "toy" "toy" real), .kept word]
    let s := Session.start none
    (∀ edit ∈ edits, edit.OfQuestion) ∧
      (∃ answer, (s.answers (edits.map Edit.original))[5]? = some answer ∧
        (s.answers (edits.flatMap Edit.rewritten))[6]? = some answer) ∧
      ∃ xs x x' ys, xs.length = 2 ∧
        s.answers [.draft "base" toy, .adopt "toy" "base", lowering, word,
          .extend "toy" "toy" real] = xs ++ x :: x' :: ys ∧
        s.answers [.draft "base" toy, .adopt "toy" "base", word, lowering,
          .extend "toy" "toy" real] = xs ++ x' :: x :: ys := by
  intro toy negation lowering word real edits s
  have hedits : ∀ edit ∈ edits, edit.OfQuestion := by
    simp [edits, Edit.OfQuestion, lowering, word, Step.asks]
  obtain ⟨hrewritten, hswap⟩ := questions_leave_no_trace s
  refine ⟨hedits, ?_, ?_⟩
  · exact (hrewritten edits hedits).2
      [.kept (.draft "base" toy), .kept (.adopt "toy" "base"), .copied lowering 0, .copied word 3,
        .kept (.extend "toy" "toy" real)] word [] rfl
  · exact hswap [.draft "base" toy, .adopt "toy" "base"] lowering word [.extend "toy" "toy" real]
      rfl rfl

end Session

end Shading
