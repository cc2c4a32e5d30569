import Shading.Diagnostic

/-!
# Traced computations

Work that may fail and that keeps a log. What was recorded before a failure stays recorded; after
it nothing is done and nothing recorded.

* `Traced` is a lawful monad, so that steps can be regrouped.
* `outcome_bind_eq_ok`, `outcome_bind_eq_error`: what two steps come to.
* `outcome_attempt`, `log_attempt`: a failure can be taken as a value, the log unchanged.
-/

namespace Shading

/-- How serious a record is. -/
inductive Level where
  | debug
  | warning
  | error
deriving DecidableEq, Inhabited, Repr

/-- What is recorded. -/
inductive Record where
  /-- A built-in dialect was made, with tables of these sizes. -/
  | dialectCreated (name : String) (types methods : Nat)
  | lookupFailed (missing : Unmapped)
  /-- The work on a function with this number of statements began. -/
  | functionStarted (name : String) (statements : Nat)
  | functionFinished (name : String)
  | batchStarted (functions : Nat)
  | functionFailed (name : String) (diagnostic : Diagnostic)

namespace Record

/-- The level of a record. -/
def level : Record → Level
  | lookupFailed _ => .error
  | functionFailed .. => .warning
  | dialectCreated .. | functionStarted .. | functionFinished _ | batchStarted _ => .debug

/-- The text of a record. -/
def text : Record → String
  | dialectCreated name types methods =>
    "Created " ++ name ++ " backend with " ++ toString types ++ " types and " ++
      toString methods ++ " functions"
  | lookupFailed missing => missing.text
  | functionStarted name statements =>
    "Generating function '" ++ name ++ "' (" ++ toString statements ++ " statements)"
  | functionFinished name => "Generated function '" ++ name ++ "'"
  | batchStarted functions => "Translating " ++ toString functions ++ " functions"
  | functionFailed name diagnostic =>
    "Failed to translate '" ++ name ++ "': " ++ diagnostic.message

end Record

variable {ε ε' α β : Type}

/-- What work came to, and what it recorded, oldest first. -/
structure Traced (ε α : Type) where
  outcome : Except ε α
  log : List Record

namespace Traced

/-- Puts records before those of `x`. -/
def after (log : List Record) (x : Traced ε α) : Traced ε α :=
  ⟨x.outcome, log ++ x.log⟩

/-- Goes on with `f` if `x` succeeds. -/
def andThen (x : Traced ε α) (f : α → Traced ε β) : Traced ε β :=
  match x.outcome with
  | .ok a => (f a).after x.log
  | .error e => ⟨.error e, x.log⟩

instance : Monad (Traced ε) where
  pure a := ⟨.ok a, []⟩
  bind := andThen

/-- Fails without a record. -/
def fail (e : ε) : Traced ε α :=
  ⟨.error e, []⟩

/-- Records one event. -/
def note (r : Record) : Traced ε Unit :=
  ⟨.ok (), [r]⟩

/-- Replaces the error by another one. -/
def mapError (f : ε → ε') (x : Traced ε α) : Traced ε' α :=
  ⟨x.outcome.mapError f, x.log⟩

/-- Takes the outcome as a value, so that work goes on after a failure. -/
def attempt (x : Traced ε α) : Traced ε' (Except ε α) :=
  ⟨.ok x.outcome, x.log⟩

@[simp] theorem outcome_pure (a : α) : (pure a : Traced ε α).outcome = .ok a := rfl

@[simp] theorem log_pure (a : α) : (pure a : Traced ε α).log = [] := rfl

@[simp] theorem outcome_fail (e : ε) : (fail e : Traced ε α).outcome = .error e := rfl

@[simp] theorem log_fail (e : ε) : (fail e : Traced ε α).log = [] := rfl

@[simp] theorem outcome_attempt (x : Traced ε α) :
    (x.attempt : Traced ε' _).outcome = .ok x.outcome := rfl

@[simp] theorem log_attempt (x : Traced ε α) : (x.attempt : Traced ε' _).log = x.log := rfl

theorem bind_eq (x : Traced ε α) (f : α → Traced ε β) : x >>= f = x.andThen f := rfl

theorem bind_of_ok {x : Traced ε α} {a : α} (h : x.outcome = .ok a) (f : α → Traced ε β) :
    x >>= f = (f a).after x.log := by
  rw [bind_eq, andThen, h]

theorem bind_of_error {x : Traced ε α} {e : ε} (h : x.outcome = .error e)
    (f : α → Traced ε β) : x >>= f = ⟨.error e, x.log⟩ := by
  rw [bind_eq, andThen, h]

/-- Two steps succeed together when the first does and the second does with what it gave. -/
theorem outcome_bind_eq_ok {x : Traced ε α} {f : α → Traced ε β} {b : β} :
    (x >>= f).outcome = .ok b ↔ ∃ a, x.outcome = .ok a ∧ (f a).outcome = .ok b := by
  cases h : x.outcome with
  | error e => simp [bind_of_error h]
  | ok a => simp [bind_of_ok h, after]

/-- Two steps fail where the first does, or else where the second does. -/
theorem outcome_bind_eq_error {x : Traced ε α} {f : α → Traced ε β} {e : ε} :
    (x >>= f).outcome = .error e ↔
      x.outcome = .error e ∨ ∃ a, x.outcome = .ok a ∧ (f a).outcome = .error e := by
  cases h : x.outcome with
  | error e' => simp [bind_of_error h]
  | ok a => simp [bind_of_ok h, after]

instance : LawfulMonad (Traced ε) :=
  LawfulMonad.mk' _
    (fun x => by
      obtain ⟨_ | _, log⟩ := x
      · rfl
      · simp [Functor.map, andThen, after])
    (fun _ _ => rfl)
    (fun x f g => by
      obtain ⟨_ | a, log⟩ := x
      · rfl
      · simp only [bind, andThen, after]
        cases (f a).outcome <;> simp)

end Traced

end Shading
