import Shading.Proofs.Lowering
import Shading.Proofs.Schedule

/-!
# Results of a batch

A method of a batch gets what it would get alone. So the results can be told from the methods one by
one, and neither the other methods nor the workers of a pool have a say in them.

* `Result.IsOf`: what comes of a method alone, as a result.
* `Context.outcome_emitAll_none`: the results of a batch, method by method.
* `Context.outcome_emitAll_scheduled`: a pool gives the same, however its workers are scheduled.
* `Context.emitAll_isolated`: **a batch has one result for each method, in order, that of the method
  alone, on any pool with workers; and without workers there are no results.**
-/

namespace Shading

namespace Result

variable (r : Result)

theorem code?_eq_some {text : String} : r.code? = some text ↔ r.outcome = .ok text := by
  unfold code?
  cases r.outcome with
  | ok text' => simp only [Except.toOption, Option.some.injEq, Except.ok.injEq]
  | error e => exact iff_of_false nofun nofun

theorem error?_eq_some {e : Diagnostic} : r.error? = some e ↔ r.outcome = .error e := by
  unfold error?
  cases r.outcome with
  | ok text => exact iff_of_false nofun nofun
  | error e' => simp only [Option.some.injEq, Except.error.injEq]

/-- There is a source text or a failure, and not both. -/
theorem code?_xor_error? :
    (r.code?.isSome = true ∧ r.error? = none) ∨ (r.code? = none ∧ r.error?.isSome = true) := by
  unfold code? error?
  cases r.outcome with
  | ok text => exact .inl ⟨rfl, rfl⟩
  | error e => exact .inr ⟨rfl, rfl⟩

theorem ok_iff_isSome_code? : r.ok = true ↔ r.code?.isSome = true := by
  unfold ok code? error?
  cases r.outcome with
  | ok text => exact iff_of_true rfl rfl
  | error e => exact iff_of_false Bool.false_ne_true Bool.false_ne_true

/-- `r` shows what comes of `d` alone: its source text or its failure, and not both. -/
structure IsOf (ctx : Context) (d : Definition) (r : Result) : Prop where
  method : r.method = d.method
  code : ∀ text, r.code? = some text ↔ (ctx.emit d).outcome = .ok text
  error : ∀ e, r.error? = some e ↔ (ctx.emit d).outcome = .error e
  exclusive : (r.code?.isSome = true ∧ r.error? = none) ∨ (r.code? = none ∧ r.error?.isSome = true)
  ok : r.ok = true ↔ r.code?.isSome = true

end Result

namespace Context

variable (ctx : Context)

/-- What comes of `d` alone, as a result. -/
def resultOf (d : Definition) : Result :=
  ⟨d.method, (ctx.emit d).outcome⟩

theorem isOf_resultOf (d : Definition) : Result.IsOf ctx d (ctx.resultOf d) where
  method := rfl
  code _ := Result.code?_eq_some _
  error _ := Result.error?_eq_some _
  exclusive := Result.code?_xor_error? _
  ok := Result.ok_iff_isSome_code? _

variable {ctx}

/-- A failure becomes part of the result, so an item of a batch never fails. -/
theorem outcome_emitItem (d : Definition) :
    (ctx.emitItem d).outcome = .ok (ctx.resultOf d) := by
  unfold emitItem resultOf
  rw [Traced.outcome_bind_eq_ok]
  refine ⟨(ctx.emit d).outcome, rfl, ?_⟩
  cases (ctx.emit d).outcome <;> rfl

/-- Jobs that are collected in order give the results of the methods in order. -/
theorem outcome_mapM_emitItem (ds : List Definition) :
    ((ds.map ctx.emitItem).mapM id).outcome = .ok (ds.map ctx.resultOf) := by
  rw [Traced.outcome_mapM_eq_ok, List.forall₂_map_left_iff, List.forall₂_map_right_iff,
    List.forall₂_same]
  intro d _
  exact outcome_emitItem d

theorem outcome_emitAll_none (ds : List Definition) :
    (ctx.emitAll none ds).outcome = .ok (ds.map ctx.resultOf) := by
  unfold emitAll
  rw [Traced.outcome_bind_eq_ok]
  exact ⟨(), rfl, outcome_mapM_emitItem ds⟩

/-- **However the workers of a pool are scheduled**, what is collected at the end are the results of
the methods in order. -/
theorem outcome_emitAll_scheduled {ds : List Definition} {workers : Nat} {moves : List Pool.Move}
    {p : Pool (Traced UsageError Result)}
    (hrun : (Pool.submit workers (ds.map ctx.emitItem)).run? moves = some p)
    (hf : p.isFinished = true) :
    (p.collect.mapM id).outcome = (ctx.emitAll none ds).outcome := by
  rw [Pool.collect_of_run hrun hf, outcome_mapM_emitItem, outcome_emitAll_none]

/-- Without workers the batch fails as a whole. -/
theorem outcome_emitAll_of_no_workers {workers : Int} (h : workers ≤ 0) (ds : List Definition) :
    (ctx.emitAll (some workers) ds).outcome = .error .noWorkers := by
  unfold emitAll
  rw [Traced.outcome_bind_eq_error]
  refine .inr ⟨(), rfl, ?_⟩
  simp only [if_pos h]
  rfl

/-- **A batch has one result for each method, in the order of the methods, and each result is that of
its method alone.** On a pool with workers every run can be continued to its end, which comes within
two moves for each method; a slot that is filled holds what comes of the method of that number; and
what is collected at the end is what is given without a pool. Without workers there are no results,
not even for no methods. -/
theorem emitAll_isolated (ctx : Context) (ds : List Definition) :
    (∃ rs, (ctx.emitAll none ds).outcome = .ok rs ∧ List.Forall₂ (Result.IsOf ctx) ds rs) ∧
    (∀ workers : Int, 0 < workers →
      (ctx.emitAll (some workers) ds).outcome = (ctx.emitAll none ds).outcome ∧
      ∀ moves p, (Pool.submit workers.toNat (ds.map ctx.emitItem)).run? moves = some p →
        (moves.length ≤ 2 * ds.length ∧ ∃ rest q, p.run? rest = some q ∧ q.isFinished = true) ∧
        (∀ (i : Nat) job, p.slots.get? i = some job →
          ∃ d, ds[i]? = some d ∧ job.outcome = .ok (ctx.resultOf d)) ∧
        (p.isFinished = true → (p.collect.mapM id).outcome = (ctx.emitAll none ds).outcome)) ∧
    ∀ workers : Int, workers ≤ 0 → ∃ e, (ctx.emitAll (some workers) ds).outcome = .error e ∧
      e.text = "max_workers must be greater than 0" := by
  refine ⟨⟨ds.map ctx.resultOf, outcome_emitAll_none ds, ?_⟩, fun workers hw => ⟨?_, ?_⟩,
    fun workers hw => ⟨.noWorkers, outcome_emitAll_of_no_workers hw ds, rfl⟩⟩
  · rw [List.forall₂_map_right_iff, List.forall₂_same]
    intro d _
    exact ctx.isOf_resultOf d
  · rw [emitAll_of_workers ctx hw]
  · intro moves p hrun
    have hpos : 0 < workers.toNat := by omega
    have hend := Pool.exists_finishing_run hpos hrun
    rw [List.length_map] at hend
    refine ⟨hend, fun i job hjob => ?_, outcome_emitAll_scheduled hrun⟩
    -- the job of that number is the one made of the method of that number
    have hi := Pool.jobs_of_run hrun hjob
    rw [List.getElem?_map, Option.map_eq_some_iff] at hi
    obtain ⟨d, hd, rfl⟩ := hi
    exact ⟨d, hd, outcome_emitItem d⟩

/-- Of two methods on two workers the second is finished first; the first one fails, and the results
are in order all the same. -/
theorem second_method_finishes_first :
    let failing : Definition := ⟨⟨"Foo", ⟨"half", none⟩, []⟩, .bare []⟩
    let passing : Definition :=
      ⟨⟨"Bar", ⟨"float", none⟩, []⟩, .bare [.returnStatement .unknown .absent]⟩
    let moves : List Pool.Move := [.take 0, .take 1, .finish 1, .finish 0]
    ∃ p, (Pool.submit 2 ([failing, passing].map floatOnly.emitItem)).run? moves = some p ∧
      p.isFinished = true ∧
      (p.collect.mapM id).outcome =
        .ok [floatOnly.resultOf failing, floatOnly.resultOf passing] ∧
      (floatOnly.resultOf failing).code? = none ∧
      (floatOnly.resultOf passing).code? = some "float Bar()\n\x7b\nreturn;\n\x7d\n" ∧
      (floatOnly.emitAll (some 0) []).outcome = .error .noWorkers := by
  intro failing passing moves
  obtain ⟨-, hpool, -⟩ := emitAll_isolated floatOnly [failing, passing]
  have hrun : ∃ p,
      (Pool.submit 2 ([failing, passing].map floatOnly.emitItem)).run? moves = some p ∧
        p.isFinished = true := ⟨_, rfl, rfl⟩
  obtain ⟨p, hp, hf⟩ := hrun
  have hsame := ((hpool 2 (by decide)).2 moves p hp).2.2 hf
  refine ⟨p, hp, hf, ?_, rfl, rfl, ?_⟩
  · rw [hsame, outcome_emitAll_none]
    rfl
  · obtain ⟨e, he, htext⟩ := (emitAll_isolated floatOnly []).2.2 0 (by decide)
    rw [he]
    cases e with
    | noWorkers => rfl
    | unsupportedDialect shown => cases he

end Context

end Shading
