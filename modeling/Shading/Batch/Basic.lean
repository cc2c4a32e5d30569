import Shading.Batch.Pool
import Shading.Lowering.Function
import Shading.UsageError

/-!
# Batches

Several methods turned into functions in one go. A failure stays with its method: it becomes part
of that method's result, and a warning in the log. Results come in the order of the methods,
whether they are done one after the other or by a pool of workers.

* `emitAll_of_workers`: a pool gives what is given without one.
-/

namespace Shading

/-- What became of one method: its source text, or why there is none. -/
structure Result where
  method : Method
  outcome : Except Diagnostic String

namespace Result

/-- The source text, if there is one. -/
def code? (r : Result) : Option String :=
  r.outcome.toOption

/-- The failure, if there was one. -/
def error? (r : Result) : Option Diagnostic :=
  match r.outcome with
  | .ok _ => none
  | .error d => some d

/-- Whether there is a source text. -/
def ok (r : Result) : Bool :=
  r.error?.isNone

end Result

namespace Context

/-- Writes the function of one method of a batch. -/
def emitItem (ctx : Context) (d : Definition) : Traced UsageError Result := do
  let outcome ← (ctx.emit d).attempt
  match outcome with
  | .ok _ => pure ()
  | .error e => .note (.functionFailed d.method.name e)
  pure ⟨d.method, outcome⟩

/-- Writes the functions of methods, on a pool if a number of workers is given. -/
def emitAll (ctx : Context) (workers : Option Int) (ds : List Definition) :
    Traced UsageError (List Result) := do
  .note (.batchStarted ds.length)
  let jobs := ds.map ctx.emitItem
  match workers with
  | none => jobs.mapM id
  | some n =>
    if n ≤ 0 then .fail .noWorkers else (Pool.submit n.toNat jobs).drain.collect.mapM id

/-- A pool with workers gives what is given without one. -/
theorem emitAll_of_workers (ctx : Context) {n : Int} (hn : 0 < n) (ds : List Definition) :
    ctx.emitAll (some n) ds = ctx.emitAll none ds := by
  have hw : 0 < n.toNat := by omega
  have hle : ¬ n ≤ 0 := by omega
  simp only [emitAll, if_neg hle, Pool.collect_drain hw]

end Context

end Shading
