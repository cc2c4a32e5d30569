import Shading.Proofs.Batch
import Shading.Proofs.Failing
import Shading.Proofs.Obstacle

/-!
# The log of a batch

Each method of a batch leaves the record of its start and, if it becomes a function, that of its
end. If it does not, one warning shows the failure that is in its result; and before it one error shows
the look-up that failed, if it was one. So the log can be read off the results, and the results off
the log.

* `Record.shown`: what is seen of a record.
* `Context.emit_cases`: how a method can go, each time with all that is recorded.
* `Context.ItemTrace`: what is seen of one method of a batch, told from its result.
* `Context.log_emitAll`: **the log of a batch is the trace of its results, one after the other.**
-/

namespace Shading

/-- What is seen of a record: its level and its text. -/
def Record.shown (r : Record) : Level × String :=
  (r.level, r.text)

namespace Result

variable (r : Result)

/-- The warning about a result that is a failure, as it is seen. -/
def shownFailure? : Option (Level × String) :=
  r.error?.map fun e =>
    (.warning, "Failed to translate '" ++ r.method.name ++ "': " ++ e.message)

/-- Whether the dialect lacked a name. -/
def lacksName : Bool :=
  r.error?.any (·.kind = .unmappedName)

/-- The text shows the look-up at which `r` failed: the failure has this text, or adds to it the
signature in which the name stands. -/
def ShowsLookup (shown : Level × String) : Prop :=
  ∃ e, r.error? = some e ∧ e.kind = .unmappedName ∧
    (e.text = shown.2 ∨ e.text = shown.2 ++ " in signature of '" ++ r.method.name ++ "'")

end Result

namespace Traced

variable {ε α β : Type}

/-- Work that succeeds on the items of a list leaves what it leaves on each of them, in order. -/
theorem log_mapM {f : α → Traced ε β} {as : List α} {bs : List β}
    (h : (as.mapM f).outcome = .ok bs) : (as.mapM f).log = as.flatMap fun a => (f a).log := by
  have hitems := outcome_mapM_eq_ok.1 h
  clear h
  induction hitems with
  | nil => rfl
  | @cons a b as bs ha has ih =>
    have hrest : (as.mapM f).outcome = .ok bs := outcome_mapM_eq_ok.2 has
    rw [List.mapM_cons, bind_of_ok ha, bind_of_ok hrest, List.flatMap_cons, ← ih]
    simp [after]

end Traced

namespace Context

section Statement

variable (ctx : Context) (d : Definition)

/-- The message about a look-up that fails. -/
def missMessage (l : Lookup) : String :=
  l.text ++ " has no " ++ ctx.dialect.name ++ " equivalent"

/-- The record of the start of `d`, as it is seen. -/
def shownStart : Level × String :=
  (.debug, "Generating function '" ++ d.method.name ++ "' (" ++
    toString d.body.statements.length ++ " statements)")

/-- The warning about the failure `e` of `d`, as it is seen. -/
def shownFailure (e : Diagnostic) : Level × String :=
  (.warning, "Failed to translate '" ++ d.method.name ++ "': " ++ e.message)

/-- What is seen of `d` in the log of a batch, told from its result. -/
inductive ItemTrace : Result → List (Level × String) → Prop where
  | finished {code : String} :
    ItemTrace ⟨d.method, .ok code⟩
      [shownStart d, (.debug, "Generated function '" ++ d.method.name ++ "'")]
  /-- A type of the signature has no token. The failure adds to the message of the look-up where it
  was made. -/
  | unmappedInSignature {e : Diagnostic} {t : TypeRef} :
    t ∈ d.method.signatureTypes → ctx.dialect.find? (.type t.fullName) = none →
    e.kind = .unmappedName →
    e.text = ctx.missMessage (.type t.fullName) ++ " in signature of '" ++ d.method.name ++ "'" →
    ItemTrace ⟨d.method, .error e⟩
      [shownStart d, (.error, ctx.missMessage (.type t.fullName)), shownFailure d e]
  /-- The signature has all its tokens, and the dialect lacks something in the body. -/
  | unmappedInBody {e : Diagnostic} {l : Lookup} :
    (∀ t ∈ d.method.signatureTypes, (ctx.dialect.find? (.type t.fullName)).isSome = true) →
    ctx.dialect.find? l = none → e.kind = .unmappedName → e.text = ctx.missMessage l →
    ItemTrace ⟨d.method, .error e⟩
      [shownStart d, (.error, ctx.missMessage l), shownFailure d e]
  | failed {e : Diagnostic} :
    e.kind ≠ .unmappedName → ItemTrace ⟨d.method, .error e⟩ [shownStart d, shownFailure d e]

/-- What is seen of `d` in the log of a batch. -/
def shownItem : List (Level × String) :=
  (ctx.emitItem d).log.map Record.shown

end Statement

variable {ctx : Context} {d : Definition}

/-- A signature that is lowered has tokens for all its types. -/
theorem isSome_find?_of_lowerSignature {m : Method} {s : Target.Signature}
    (h : (ctx.lowerSignature m).outcome = .ok s) :
    ∀ t ∈ m.signatureTypes, (ctx.dialect.find? (.type t.fullName)).isSome = true := by
  intro t ht
  have hnil := (meets_lowerSignature m).exists_ok_iff.1 ⟨s, h⟩
  have hmem := signatureObstacle_eq_nil.1 (List.flatMap_eq_nil_iff.1 hnil t ht)
  exact Table.isSome_get?.2 hmem

/-- **How a method can go**, each time with all that is recorded: it fails in its signature, it
fails in its body, or it succeeds. -/
theorem emit_cases (ctx : Context) (d : Definition) :
    let start : Record := .functionStarted d.method.name d.body.statements.length
    (∃ e log, ctx.emit d = ⟨.error e, start :: log⟩ ∧ ctx.LeavesInSignature d.method e log) ∨
    (∃ e log, ctx.emit d = ⟨.error e, start :: log⟩ ∧ ctx.Leaves e log ∧
      ∀ t ∈ d.method.signatureTypes, (ctx.dialect.find? (.type t.fullName)).isSome = true) ∨
    ∃ text, ctx.emit d = ⟨.ok text, [start, .functionFinished d.method.name]⟩ := by
  intro start
  have hsignature : (ctx.lowerSignature d.method).QuietUnless (ctx.LeavesInSignature d.method) :=
    quietUnless_lowerSignature d.method
  have hbody : (ctx.lowerBody d.body.statements).QuietUnless ctx.Leaves :=
    quietUnless_lowerBody d.body.statements
  cases hs : (ctx.lowerSignature d.method).outcome with
  | error e =>
    refine .inl ⟨e, _, ?_, hsignature.of_error hs⟩
    unfold emit emitIndented lowerFunction
    rw [Traced.bind_of_error hs]
    rfl
  | ok s =>
    have hlog := hsignature.log_of_ok hs
    cases hb : (ctx.lowerBody d.body.statements).outcome with
    | error e =>
      refine .inr (.inl ⟨e, _, ?_, hbody.of_error hb, isSome_find?_of_lowerSignature hs⟩)
      unfold emit emitIndented lowerFunction
      rw [Traced.bind_of_ok hs, Traced.bind_of_error hb, hlog]
      rfl
    | ok ss =>
      have hlog' := hbody.log_of_ok hb
      refine .inr (.inr ⟨(Target.Function.mk s ss).text "", ?_⟩)
      unfold emit emitIndented lowerFunction
      rw [Traced.bind_of_ok hs, Traced.bind_of_ok hb, hlog, hlog']
      rfl

/-- An item that becomes a function adds nothing to the log. -/
theorem emitItem_of_ok {text : String} {log : List Record} (h : ctx.emit d = ⟨.ok text, log⟩) :
    ctx.emitItem d = ⟨.ok ⟨d.method, .ok text⟩, log⟩ := by
  unfold emitItem
  rw [h]
  simp [bind, Traced.andThen, Traced.attempt, Traced.after]

/-- An item that fails adds a warning. -/
theorem emitItem_of_error {e : Diagnostic} {log : List Record} (h : ctx.emit d = ⟨.error e, log⟩) :
    ctx.emitItem d =
      ⟨.ok ⟨d.method, .error e⟩, log ++ [.functionFailed d.method.name e]⟩ := by
  unfold emitItem
  rw [h]
  simp [bind, Traced.andThen, Traced.attempt, Traced.after, Traced.note]

/-- What is seen of an item is told from its result. -/
theorem itemTrace (ctx : Context) (d : Definition) :
    ctx.ItemTrace d (ctx.resultOf d) (ctx.shownItem d) := by
  unfold resultOf shownItem
  rcases emit_cases ctx d with ⟨e, log, hemit, hleaves⟩ | ⟨e, log, hemit, hleaves, htypes⟩ |
    ⟨text, hemit⟩
  · rw [emitItem_of_error hemit, hemit]
    cases hleaves with
    | lookup ht hl => exact .unmappedInSignature ht hl rfl rfl
  · rw [emitItem_of_error hemit, hemit]
    cases hleaves with
    | lookup site hl => exact .unmappedInBody htypes hl rfl rfl
    | other site hcause => exact .failed hcause
  · rw [emitItem_of_ok hemit, hemit]
    exact .finished

/-- The log of a batch without a pool: its size, and then item by item. -/
theorem shown_log_emitAll (ds : List Definition) :
    (ctx.emitAll none ds).log.map Record.shown =
      (.debug, "Translating " ++ toString ds.length ++ " functions") ::
        ds.flatMap ctx.shownItem := by
  have hjobs : ((ds.map ctx.emitItem).mapM id).outcome = .ok (ds.map ctx.resultOf) :=
    outcome_mapM_emitItem ds
  have hlog := Traced.log_mapM hjobs
  have hbatch : (ctx.emitAll none ds).log =
      .batchStarted ds.length :: ((ds.map ctx.emitItem).mapM id).log := rfl
  rw [hbatch, hlog, List.map_cons, List.map_flatMap, List.flatMap_map]
  rfl

variable {r : Result} {shown : List (Level × String)}

/-- There is a warning about a result exactly if it is a failure, and the warning shows it. -/
theorem ItemTrace.filter_warning (h : ctx.ItemTrace d r shown) :
    shown.filter (·.1 = .warning) = r.shownFailure?.toList := by
  cases h <;> rfl

/-- There is an error about a result exactly if it lacks a name, and the error shows the look-up. -/
theorem ItemTrace.filter_error (h : ctx.ItemTrace d r shown) :
    List.Forall₂ Result.ShowsLookup ([r].filter Result.lacksName)
      (shown.filter (·.1 = .error)) := by
  cases h with
  | finished => exact .nil
  | @unmappedInSignature e t _ _ hkind htext =>
    have hlacks : Result.lacksName ⟨d.method, .error e⟩ = true := decide_eq_true hkind
    rw [List.filter_singleton, hlacks]
    exact .cons ⟨e, rfl, hkind, .inr htext⟩ .nil
  | @unmappedInBody e l _ _ hkind htext =>
    have hlacks : Result.lacksName ⟨d.method, .error e⟩ = true := decide_eq_true hkind
    rw [List.filter_singleton, hlacks]
    exact .cons ⟨e, rfl, hkind, .inl htext⟩ .nil
  | @failed e hkind =>
    have hlacks : Result.lacksName ⟨d.method, .error e⟩ = false := decide_eq_false hkind
    rw [List.filter_singleton, hlacks]
    exact .nil

/-- The warnings about the items of a batch show its failures, in order. -/
theorem filter_warning_items (ctx : Context) (ds : List Definition) :
    (ds.flatMap ctx.shownItem).filter (·.1 = .warning) =
      (ds.map ctx.resultOf).filterMap Result.shownFailure? := by
  calc (ds.flatMap ctx.shownItem).filter (·.1 = .warning)
    _ = ds.flatMap fun d => (ctx.shownItem d).filter (·.1 = .warning) := List.filter_flatMap
    _ = ds.flatMap fun d => (ctx.resultOf d).shownFailure?.toList := by
        simp only [(itemTrace ctx _).filter_warning]
    _ = (ds.map ctx.resultOf).filterMap Result.shownFailure? := by
        rw [List.filterMap_eq_flatMap_toList, List.flatMap_map]

/-- The errors about the items of a batch show the look-ups of those that lack a name, in order. -/
theorem filter_error_items (ctx : Context) (ds : List Definition) :
    List.Forall₂ Result.ShowsLookup ((ds.map ctx.resultOf).filter Result.lacksName)
      ((ds.flatMap ctx.shownItem).filter (·.1 = .error)) := by
  have hresults : (ds.map ctx.resultOf).filter Result.lacksName =
      ds.flatMap fun d => [ctx.resultOf d].filter Result.lacksName := by
    rw [show ds.map ctx.resultOf = ds.flatMap fun d => [ctx.resultOf d] from List.map_eq_flatMap,
      List.filter_flatMap]
  have hsame : List.Forall₂ (fun d d' : Definition => d = d') ds ds :=
    List.forall₂_same.2 fun _ _ => rfl
  rw [hresults, List.filter_flatMap]
  refine List.rel_flatMap hsame ?_
  rintro d _ rfl
  exact (itemTrace ctx d).filter_error

/-- **The log of a batch is the trace of its results.** After the record of the size of the batch
come those of its methods, in order, and nothing else. So the warnings are the failed results, one
by one, and the errors those of them that lack a name. -/
theorem log_emitAll (ctx : Context) (ds : List Definition) :
    let rs := ds.map ctx.resultOf
    let log := (ctx.emitAll none ds).log.map Record.shown
    (ctx.emitAll none ds).outcome = .ok rs ∧
    log = (.debug, "Translating " ++ toString ds.length ++ " functions") ::
      ds.flatMap ctx.shownItem ∧
    (∀ d, ctx.ItemTrace d (ctx.resultOf d) (ctx.shownItem d)) ∧
    log.filter (·.1 = .warning) = rs.filterMap Result.shownFailure? ∧
    List.Forall₂ Result.ShowsLookup (rs.filter Result.lacksName) (log.filter (·.1 = .error)) := by
  intro rs log
  have hlog : log = (.debug, "Translating " ++ toString ds.length ++ " functions") ::
      ds.flatMap ctx.shownItem := shown_log_emitAll ds
  -- the first record is neither a warning nor an error, so both are those of the items
  have hwarnings : log.filter (·.1 = .warning) =
      (ds.flatMap ctx.shownItem).filter (·.1 = .warning) := by
    rw [hlog]
    rfl
  have herrors : log.filter (·.1 = .error) =
      (ds.flatMap ctx.shownItem).filter (·.1 = .error) := by
    rw [hlog]
    rfl
  refine ⟨outcome_emitAll_none ds, hlog, itemTrace ctx, ?_, ?_⟩
  · rw [hwarnings]
    exact filter_warning_items ctx ds
  · rw [herrors]
    exact filter_error_items ctx ds

/-- Of three methods the first lacks a type of its signature, the second returns a negation, and the
third becomes a function. -/
theorem mixed_batch_logged :
    let float : TypeRef := ⟨"float", none⟩
    let lacking : Definition := ⟨⟨"Foo", ⟨"half", none⟩, []⟩, .bare []⟩
    let failing : Definition := ⟨⟨"Bar", float, []⟩,
      .bare [.returnStatement ⟨some 2, none⟩ (.unary .unknown "-" .absent)]⟩
    let passing : Definition := ⟨⟨"Baz", float, []⟩, .bare [.returnStatement .unknown .absent]⟩
    (floatOnly.emitAll none [lacking, failing, passing]).log.map Record.shown =
        [(.debug, "Translating 3 functions"),
          (.debug, "Generating function 'Foo' (0 statements)"),
          (.error, "Type 'half' has no HLSL equivalent"),
          (.warning,
            "Failed to translate 'Foo': Type 'half' has no HLSL equivalent in signature of 'Foo'"),
          (.debug, "Generating function 'Bar' (1 statements)"),
          (.warning,
            "Failed to translate 'Bar': Unsupported expression: UnaryExpression at line 2"),
          (.debug, "Generating function 'Baz' (1 statements)"),
          (.debug, "Generated function 'Baz'")] ∧
      [floatOnly.resultOf lacking, floatOnly.resultOf failing,
          floatOnly.resultOf passing].filterMap Result.shownFailure? =
        [(.warning,
            "Failed to translate 'Foo': Type 'half' has no HLSL equivalent in signature of 'Foo'"),
          (.warning,
            "Failed to translate 'Bar': Unsupported expression: UnaryExpression at line 2")] := by
  intro float lacking failing passing
  have hbatch := log_emitAll floatOnly [lacking, failing, passing]
  obtain ⟨-, hlog, -, hwarnings, -⟩ := hbatch
  constructor
  · rw [hlog]
    decide +kernel
  · exact hwarnings.symm

end Context

end Shading
