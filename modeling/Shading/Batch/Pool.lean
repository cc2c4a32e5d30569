import Shading.Table

/-!
# A pool of workers

Jobs are submitted together and numbered in that order. Workers take up waiting jobs, at most as
many at a time as there are workers, and finish them in any order; what a job yields goes into
the slot with its number. Collecting reads the slots in the order of the numbers.

A run of the pool is a list of moves. Which moves are possible is decided by the pool, which of
them are made by whoever schedules the workers.

* `collect_drain`: one worker who takes the jobs in turn gets all of them done.
-/

namespace Shading

variable {α : Type}

/-- The state of a pool. -/
structure Pool (α : Type) where
  workers : Nat
  /-- What each job yields. -/
  jobs : List α
  /-- The numbers of the jobs that nobody has taken up. -/
  waiting : List Nat
  /-- The numbers of the jobs that are being worked on. -/
  running : List Nat
  /-- What finished jobs have yielded, by their numbers. -/
  slots : Table Nat α

namespace Pool

/-- What can happen next in a pool. -/
inductive Move where
  /-- A free worker takes up a job. -/
  | take (job : Nat)
  /-- The worker at a job finishes it. -/
  | finish (job : Nat)
deriving DecidableEq, Inhabited, Repr

/-- A pool to which jobs have just been submitted. -/
def submit (workers : Nat) (jobs : List α) : Pool α :=
  ⟨workers, jobs, List.range jobs.length, [], .empty⟩

/-- The pool after a move, if the move is possible. -/
def move? (p : Pool α) : Move → Option (Pool α)
  | .take job =>
    if job ∈ p.waiting ∧ p.running.length < p.workers then
      some { p with waiting := p.waiting.erase job, running := job :: p.running }
    else none
  | .finish job =>
    if job ∈ p.running then
      p.jobs[job]?.map fun a =>
        { p with running := p.running.erase job, slots := p.slots.insert job a }
    else none

/-- The pool after several moves, if each of them is possible in its turn. -/
def run? (p : Pool α) (moves : List Move) : Option (Pool α) :=
  moves.foldlM move? p

/-- Whether every job has been finished. -/
def isFinished (p : Pool α) : Bool :=
  p.waiting.isEmpty && p.running.isEmpty

/-- What has been yielded so far, in the order of submission. -/
def collect (p : Pool α) : List α :=
  (List.range p.jobs.length).filterMap p.slots.get?

/-- The moves of a single worker who takes the jobs in order. -/
def inTurn (jobs : Nat) : List Move :=
  (List.range jobs).flatMap fun job => [.take job, .finish job]

/-- The pool after all its jobs were done in turn, as far as that is possible. -/
def drain (p : Pool α) : Pool α :=
  (p.run? (inTurn p.jobs.length)).getD p

/-- The pool after the waiting job `job` was taken up and finished, with nobody else at work. -/
def finishNext (p : Pool α) (job : Nat) (a : α) : Pool α :=
  { p with waiting := p.waiting.erase job, running := [], slots := p.slots.insert job a }

theorem run?_take_finish {p : Pool α} {job : Nat} {a : α} (hw : 0 < p.workers)
    (hj : job ∈ p.waiting) (hr : p.running = []) (ha : p.jobs[job]? = some a)
    (moves : List Move) :
    p.run? (.take job :: .finish job :: moves) = (p.finishNext job a).run? moves := by
  simp [run?, move?, hj, hr, hw, ha, finishNext]

/-- Jobs that wait at the end of the list are done in turn, and what was yielded before stays. -/
theorem run?_inTurn (workers : Nat) (hw : 0 < workers) (done left : List α) (slots : Table Nat α)
    (hs : ∀ i < done.length, slots.get? i = done[i]?) :
    ∃ slots' : Table Nat α,
      run? ⟨workers, done ++ left, List.range' done.length left.length, [], slots⟩
          ((List.range' done.length left.length).flatMap fun job => [.take job, .finish job]) =
        some ⟨workers, done ++ left, [], [], slots'⟩ ∧
      ∀ i < (done ++ left).length, slots'.get? i = (done ++ left)[i]? := by
  induction left generalizing done slots with
  | nil => exact ⟨slots, rfl, by simpa using hs⟩
  | cons a left ih =>
    have here : (done ++ a :: left)[done.length]? = some a := by simp
    have hs' : ∀ i < (done ++ [a]).length,
        (slots.insert done.length a).get? i = (done ++ [a])[i]? := by
      intro i hi
      rw [Table.get?_insert]
      split
      · rename_i h
        simp [h]
      · rename_i h
        have hlt : i < done.length := by
          simp only [List.length_append, List.length_singleton] at hi
          omega
        rw [hs i hlt, List.getElem?_append_left hlt]
    obtain ⟨slots', hrun, hget⟩ := ih (done ++ [a]) _ hs'
    simp only [List.append_assoc, List.singleton_append, List.length_append,
      List.length_singleton] at hrun hget
    refine ⟨slots', ?_, by simpa using hget⟩
    rw [List.length_cons, List.range'_succ, List.flatMap_cons]
    simp only [List.cons_append, List.nil_append]
    rw [run?_take_finish hw List.mem_cons_self rfl here]
    simpa [finishNext] using hrun

/-- Reading consecutive slots gives the list that they hold. -/
theorem filterMap_range' {slot : Nat → Option α} (jobs : List α) (first : Nat)
    (h : ∀ i < jobs.length, slot (first + i) = jobs[i]?) :
    (List.range' first jobs.length).filterMap slot = jobs := by
  induction jobs generalizing first with
  | nil => rfl
  | cons a jobs ih =>
    have head : slot first = some a := h 0 (Nat.zero_lt_succ _)
    have tail : ∀ i < jobs.length, slot (first + 1 + i) = jobs[i]? := fun i hi => by
      have := h (i + 1) (Nat.succ_lt_succ hi)
      rwa [Nat.add_assoc, Nat.add_comm 1 i]
    rw [List.length_cons, List.range'_succ, List.filterMap_cons, head]
    exact congrArg _ (ih (first + 1) tail)

/-- A pool in which every slot holds what its job yields collects all of that. -/
theorem collect_of_slots {p : Pool α} (h : ∀ i < p.jobs.length, p.slots.get? i = p.jobs[i]?) :
    p.collect = p.jobs := by
  rw [collect, List.range_eq_range']
  exact filterMap_range' p.jobs 0 fun i hi => by rw [Nat.zero_add]; exact h i hi

/-- One worker who takes the jobs in turn gets all of them done. -/
theorem collect_drain {workers : Nat} (hw : 0 < workers) (jobs : List α) :
    (submit workers jobs).drain.collect = jobs := by
  obtain ⟨slots, hrun, hget⟩ := run?_inTurn workers hw [] jobs .empty (by simp)
  simp only [List.nil_append, List.length_nil] at hrun hget
  have hd : (submit workers jobs).drain = ⟨workers, jobs, [], [], slots⟩ := by
    rw [drain, submit, inTurn]
    simp only [List.range_eq_range']
    rw [hrun]
    rfl
  rw [hd]
  exact collect_of_slots hget

end Pool

end Shading
