import Shading.Batch.Basic

/-!
# Every schedule of a pool

Who schedules the workers decides which jobs are taken up and in which order they are finished. What
is collected in the end does not depend on it.

* `Pool.move?_cases`: what a move does.
* `Pool.Sound`: each job waits, is worked on, or has what it yields in its slot;
  `Pool.Sound.move`, `Pool.Sound.run`: one move keeps that, and so do many.
* `Pool.collect_of_run`: **a pool that has come to its end by whatever moves collects what the jobs
  yield, in the order of submission.**
* `Pool.exists_finishing_run`: no run leads into a state from which there is no way to the end, and
  no run is longer than two moves for each job.
-/

namespace Shading

namespace Pool

variable {α : Type} {workers : Nat} {jobs : List α} {p q : Pool α} {m : Move}
  {moves : List Move}

@[simp] theorem run?_nil (p : Pool α) : p.run? [] = some p := rfl

theorem run?_cons (p : Pool α) (m : Move) (moves : List Move) :
    p.run? (m :: moves) = (p.move? m).bind fun q => q.run? moves := rfl

/-- A move takes up a waiting job while a worker is free, or finishes a job that is worked on. -/
theorem move?_cases (h : p.move? m = some q) :
    (∃ job, m = .take job ∧ job ∈ p.waiting ∧ p.running.length < p.workers ∧
      q = { p with waiting := p.waiting.erase job, running := job :: p.running }) ∨
    (∃ job a, m = .finish job ∧ job ∈ p.running ∧ p.jobs[job]? = some a ∧
      q = { p with running := p.running.erase job, slots := p.slots.insert job a }) := by
  cases m with
  | take job =>
    left
    simp only [move?] at h
    split at h
    · rename_i hguard
      exact ⟨job, rfl, hguard.1, hguard.2, (Option.some.inj h).symm⟩
    · cases h
  | finish job =>
    right
    simp only [move?] at h
    split at h
    · rename_i hjob
      obtain ⟨a, ha, hq⟩ := Option.map_eq_some_iff.1 h
      exact ⟨job, a, rfl, hjob, ha, hq.symm⟩
    · cases h

/-- What holds of a pool of `workers` from the submission of `jobs` on. -/
structure Sound (workers : Nat) (jobs : List α) (p : Pool α) : Prop where
  workers_eq : p.workers = workers
  jobs_eq : p.jobs = jobs
  busy : p.running.length ≤ workers
  /-- Each job is in one place: it waits, is worked on, or is finished. -/
  places : (p.waiting ++ (p.running ++ p.slots.keys)).Perm (List.range jobs.length)
  /-- What is in a slot is what the job of that number yields. -/
  yields : ∀ i a, p.slots.get? i = some a → jobs[i]? = some a

namespace Sound

theorem submit (workers : Nat) (jobs : List α) : Sound workers jobs (submit workers jobs) where
  workers_eq := rfl
  jobs_eq := rfl
  busy := Nat.zero_le _
  places := by
    rw [Pool.submit, Table.keys_empty, List.append_nil, List.append_nil]
  yields i a h := by
    have hnone : (Table.empty : Table Nat α).get? i = some a := h
    rw [Table.get?_empty] at hnone
    cases hnone

/-- Whatever is worked on is the number of a job that has not been finished. -/
theorem of_mem_running (h : Sound workers jobs p) {job : Nat} (hjob : job ∈ p.running) :
    job < jobs.length ∧ job ∉ p.slots.keys := by
  have hmem : job ∈ p.waiting ++ (p.running ++ p.slots.keys) :=
    List.mem_append_right _ (List.mem_append_left _ hjob)
  have hnodup : (p.waiting ++ (p.running ++ p.slots.keys)).Nodup :=
    h.places.nodup_iff.2 List.nodup_range
  have hdisjoint := (List.nodup_append.1 (List.nodup_append.1 hnodup).2.1).2.2
  refine ⟨List.mem_range.1 (h.places.mem_iff.1 hmem), fun hkey => ?_⟩
  exact hdisjoint job hjob job hkey rfl

/-- **One move** leaves each job in one place, and only what a job yields in its slot. -/
theorem move (h : Sound workers jobs p) (hm : p.move? m = some q) : Sound workers jobs q := by
  rcases move?_cases hm with ⟨job, -, hjob, hfree, rfl⟩ | ⟨job, a, -, hjob, ha, rfl⟩
  · -- the job goes from those that wait to those that are worked on
    refine ⟨h.workers_eq, h.jobs_eq, ?_, ?_, h.yields⟩
    · have hlt := hfree
      rw [h.workers_eq] at hlt
      exact hlt
    · have hmoved : (p.waiting.erase job ++ job :: (p.running ++ p.slots.keys)).Perm
          (p.waiting ++ (p.running ++ p.slots.keys)) := by
        refine List.perm_middle.trans ?_
        rw [← List.cons_append]
        exact (List.perm_cons_erase hjob).symm.append_right _
      exact hmoved.trans h.places
  · -- the job goes from those that are worked on to those that are finished
    obtain ⟨hlt, hkey⟩ := h.of_mem_running hjob
    have hbusy := h.busy
    have hlength : (p.running.erase job).length ≤ p.running.length := List.length_erase_le
    refine ⟨h.workers_eq, h.jobs_eq, by simp only; omega, ?_, ?_⟩
    · have hmoved : (p.running.erase job ++ (p.slots.keys ++ [job])).Perm
          (p.running ++ p.slots.keys) := by
        rw [← List.append_assoc]
        refine List.perm_append_comm.trans ?_
        rw [← List.append_assoc]
        exact (List.perm_cons_erase hjob).symm.append_right _
      have hkeys : (p.slots.insert job a).keys = p.slots.keys ++ [job] := by
        rw [Table.keys_insert, if_neg hkey]
      simp only [hkeys]
      exact (hmoved.append_left _).trans h.places
    · intro i b hb
      simp only [Table.get?_insert] at hb
      split at hb
      · rename_i hi
        rw [hi, ← Option.some.inj hb, ← h.jobs_eq]
        exact ha
      · exact h.yields i b hb

/-- **Many moves** do so too. -/
theorem run (h : Sound workers jobs p) (hrun : p.run? moves = some q) : Sound workers jobs q := by
  induction moves generalizing p with
  | nil =>
    obtain rfl := Option.some.inj hrun
    exact h
  | cons m ms ih =>
    rw [run?_cons, Option.bind_eq_some_iff] at hrun
    obtain ⟨r, hm, hrun⟩ := hrun
    exact ih (h.move hm) hrun

/-- At the end every slot is filled, so everything is collected. -/
theorem collect (h : Sound workers jobs p) (hf : p.isFinished = true) : p.collect = jobs := by
  simp only [isFinished, Bool.and_eq_true, List.isEmpty_iff] at hf
  have hplaces := h.places
  rw [hf.1, hf.2, List.nil_append, List.nil_append] at hplaces
  rw [← h.jobs_eq]
  refine collect_of_slots fun i hi => ?_
  have hkey : i ∈ p.slots.keys := by
    rw [h.jobs_eq] at hi
    exact hplaces.mem_iff.2 (List.mem_range.2 hi)
  obtain ⟨a, ha⟩ := Option.isSome_iff_exists.1 (Table.isSome_get?.2 hkey)
  rw [ha, h.jobs_eq, h.yields i a ha]

/-- A pool that is not at its end can go on: a job can be finished, or else a worker is free. -/
theorem exists_move (h : Sound workers jobs p) (hw : 0 < workers) (hf : p.isFinished = false) :
    ∃ m q, p.move? m = some q := by
  -- as long as a job is worked on it can be finished; only then may there be no free worker
  cases hr : p.running with
  | cons job rest =>
    have hjob : job ∈ p.running := by
      rw [hr]
      exact List.mem_cons_self
    have hlt : job < p.jobs.length := by
      rw [h.jobs_eq]
      exact (h.of_mem_running hjob).1
    exact ⟨.finish job, _, by rw [move?, if_pos hjob, List.getElem?_eq_getElem hlt]; rfl⟩
  | nil =>
    cases hwait : p.waiting with
    | nil =>
      rw [isFinished, hr, hwait] at hf
      cases hf
    | cons job rest =>
      have hjob : job ∈ p.waiting := by
        rw [hwait]
        exact List.mem_cons_self
      have hfree : p.running.length < p.workers := by
        rw [hr, h.workers_eq]
        exact hw
      exact ⟨.take job, _, by rw [move?, if_pos ⟨hjob, hfree⟩]⟩

end Sound

/-- The number of moves that are left: two for a job that waits, one for a job that is worked on. -/
def movesLeft (p : Pool α) : Nat :=
  2 * p.waiting.length + p.running.length

/-- Each move is one of those that were left. -/
theorem movesLeft_of_move (hm : p.move? m = some q) : q.movesLeft + 1 = p.movesLeft := by
  unfold movesLeft
  rcases move?_cases hm with ⟨job, -, hjob, -, rfl⟩ | ⟨job, a, -, hjob, -, rfl⟩
  · have hlength := List.length_erase_of_mem hjob
    have hpos := List.length_pos_of_mem hjob
    simp only [List.length_cons]
    omega
  · have hlength := List.length_erase_of_mem hjob
    have hpos := List.length_pos_of_mem hjob
    simp only
    omega

theorem movesLeft_of_run (hrun : p.run? moves = some q) :
    q.movesLeft + moves.length = p.movesLeft := by
  induction moves generalizing p with
  | nil =>
    obtain rfl := Option.some.inj hrun
    rfl
  | cons m ms ih =>
    rw [run?_cons, Option.bind_eq_some_iff] at hrun
    obtain ⟨r, hm, hrun⟩ := hrun
    have hfirst := movesLeft_of_move hm
    have hrest := ih hrun
    rw [List.length_cons]
    omega

/-- From everywhere there is a way to the end. -/
theorem Sound.exists_finishing (h : Sound workers jobs p) (hw : 0 < workers) :
    ∃ moves q, p.run? moves = some q ∧ q.isFinished = true := by
  -- the induction is on the moves that are left
  induction hleft : p.movesLeft generalizing p with
  | zero =>
    refine ⟨[], p, rfl, ?_⟩
    unfold movesLeft at hleft
    have hwait : p.waiting = [] := List.eq_nil_of_length_eq_zero (by omega)
    have hrun : p.running = [] := List.eq_nil_of_length_eq_zero (by omega)
    rw [isFinished, hwait, hrun]
    rfl
  | succ left ih =>
    cases hf : p.isFinished with
    | true => exact ⟨[], p, rfl, hf⟩
    | false =>
      obtain ⟨m, r, hm⟩ := h.exists_move hw hf
      have hstep := movesLeft_of_move hm
      obtain ⟨ms, q, hrun, hq⟩ := ih (h.move hm) (by omega)
      refine ⟨m :: ms, q, ?_, hq⟩
      rw [run?_cons, hm]
      exact hrun

/-- **A pool that has come to its end, by whatever moves, collects what the jobs yield**, in the order
of submission. -/
theorem collect_of_run (hrun : (submit workers jobs).run? moves = some p)
    (hf : p.isFinished = true) : p.collect = jobs :=
  ((Sound.submit workers jobs).run hrun).collect hf

/-- What is in a slot at any time is what the job of that number yields. -/
theorem jobs_of_run (hrun : (submit workers jobs).run? moves = some p) {i : Nat} {a : α}
    (ha : p.slots.get? i = some a) : jobs[i]? = some a :=
  ((Sound.submit workers jobs).run hrun).yields i a ha

/-- At no time are more jobs worked on than there are workers. -/
theorem running_length_le_of_run (hrun : (submit workers jobs).run? moves = some p) :
    p.running.length ≤ workers :=
  ((Sound.submit workers jobs).run hrun).busy

/-- **No run gets stuck or goes on for ever**: every run of a pool with workers can be continued to
the end, and has at most two moves for each job. -/
theorem exists_finishing_run (hw : 0 < workers)
    (hrun : (submit workers jobs).run? moves = some p) :
    moves.length ≤ 2 * jobs.length ∧ ∃ rest q, p.run? rest = some q ∧ q.isFinished = true := by
  refine ⟨?_, ((Sound.submit workers jobs).run hrun).exists_finishing hw⟩
  have hleft := movesLeft_of_run hrun
  have hall : (submit workers jobs).movesLeft = 2 * jobs.length := by
    unfold movesLeft submit
    simp only [List.length_range, List.length_nil]
    omega
  omega

end Pool

end Shading
