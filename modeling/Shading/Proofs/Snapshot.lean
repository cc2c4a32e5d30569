import Shading.Proofs.Session

/-!
# Dialects of a session are snapshots

A dialect that a session keeps was made by one step, from what was there at that moment. It stays as
it was made until a step stores another one under its name, whatever becomes of the draft or of the
dialect that it was made from.

* `Session.StoresUnder`: the step stores a dialect under a name.
* `Session.Makes`: from what it makes that dialect.
* `Session.step_dialects`: what one step does to the dialects.
* `Session.get?_dialects_after`: what a course of steps leaves alone.
* `Session.dialect_is_snapshot`: **a stored dialect is what it was made from, and stays so.**
-/

namespace Shading

/-- The diagnostic without the file. -/
def Diagnostic.unfiled (d : Diagnostic) : Diagnostic :=
  { d with file := none }

/-- The failure without the file. -/
def Failure.unfiled : Failure → Failure
  | .diagnostic d => .diagnostic d.unfiled
  | failure => failure

/-- The name under which a step stores a dialect if it succeeds. -/
def Step.dialectTarget? : Step → Option String
  | create target _ | adopt target _ | extend target _ _ => some target
  | _ => none

namespace Session

section Statement

variable (s : Session)

/-- The step succeeds in storing a dialect under the name `b`. -/
def StoresUnder (st : Step) (b : String) : Prop :=
  st.dialectTarget? = some b ∧ ∃ answer, (s.step st).2.outcome = .ok answer

/-- What the dialect that a step stores is made from, as it is at that moment. -/
inductive Makes : Step → Dialect → Prop where
  | hlsl {b : String} : Makes (.create b (.text "HLSL")) .hlsl
  | glsl {b : String} : Makes (.create b (.text "GLSL")) .glsl
  /-- The draft as it is now. -/
  | adopted {b draft : String} {d : Dialect} :
    s.drafts.get? draft = some d → Makes (.adopt b draft) d
  /-- The parent as it is now, with the words of the extension before its own. -/
  | extended {b parent : String} {e : Extension} {p d : Dialect} :
    s.dialects.get? parent = some p → d.name = p.name →
    (∀ l, d.find? l = (e.find? l).or (p.find? l)) → Makes (.extend b parent e) d

/-- None of the steps, taken in turn, stores a dialect under the name `b`. -/
def Spares (b : String) (steps : List Step) : Prop :=
  ∀ before st, before ++ [st] <+: steps → ¬ (s.after before).StoresUnder st b

end Statement

variable {s : Session} {b : String}

theorem makes_of_dialect? {selector : Selector} {d : Dialect} (h : selector.dialect? = some d)
    (b : String) : s.Makes (.create b selector) d := by
  unfold Selector.dialect? at h
  split at h
  · obtain rfl := Option.some.inj h
    exact .hlsl
  · obtain rfl := Option.some.inj h
    exact .glsl
  · cases h

/-- A step that is not meant to store a dialect stores none. -/
theorem not_storesUnder_of_dialectTarget? {st : Step} (h : st.dialectTarget? = none) (b : String) :
    ¬ s.StoresUnder st b := by
  rintro ⟨htarget, -⟩
  rw [h] at htarget
  cases htarget

/-- Nor does a step that fails. -/
theorem not_storesUnder_of_error {st : Step} {failure : Failure}
    (h : (s.step st).2.outcome = .error failure) (b : String) : ¬ s.StoresUnder st b := by
  rintro ⟨-, answer, hok⟩
  rw [h] at hok
  cases hok

/-- A step that is not meant to store a dialect leaves the dialects alone. -/
theorem dialects_step_of_dialectTarget? {st : Step} (h : st.dialectTarget? = none) :
    (s.step st).1.dialects = s.dialects := by
  cases st with
  | create | adopt | extend => cases h
  | amend | ask | reattach | showDiagnostic =>
    exact withStored_induction (P := (·.dialects = s.dialects)) rfl fun _ => rfl
  | _ => rfl

/-- A built-in dialect is made and stored, or else nothing changes. -/
theorem step_create_of_some {selector : Selector} {d : Dialect} (h : selector.dialect? = some d)
    (b : String) :
    s.step (.create b selector) = ({ s with dialects := s.dialects.insert b d },
      ⟨.ok (.ofDialect d), [.dialectCreated d.name d.types.size d.methods.size]⟩) := by
  have hmade : Dialect.create selector =
      ⟨.ok d, [.dialectCreated d.name d.types.size d.methods.size]⟩ := by
    unfold Dialect.create
    rw [h]
    rfl
  simp only [step, hmade]
  rfl

theorem step_create_of_none {selector : Selector} (h : selector.dialect? = none) (b : String) :
    s.step (.create b selector) =
      (s, ⟨.error (.usage (.unsupportedDialect selector.shown)), []⟩) := by
  have hmade : Dialect.create selector = .fail (.unsupportedDialect selector.shown) := by
    unfold Dialect.create
    rw [h]
  simp only [step, hmade]
  rfl

/-- **What one step does to the dialects**: it makes one and stores it, or it leaves them alone. -/
theorem step_dialects (s : Session) (st : Step) :
    (∃ b d, s.StoresUnder st b ∧ s.Makes st d ∧
      (s.step st).1.dialects = s.dialects.insert b d) ∨
    (∀ b, ¬ s.StoresUnder st b) ∧ (s.step st).1.dialects = s.dialects := by
  -- a step that is refused is without effect; one that succeeds answers with what it has stored
  have hrefused : ∀ failure log, s.step st = (s, ⟨.error failure, log⟩) →
      (∀ b, ¬ s.StoresUnder st b) ∧ (s.step st).1.dialects = s.dialects := fun failure log h =>
    ⟨not_storesUnder_of_error (congrArg (·.2.outcome) h), congrArg (·.1.dialects) h⟩
  have hstored : ∀ b d log, st.dialectTarget? = some b → s.Makes st d →
      s.step st = ({ s with dialects := s.dialects.insert b d }, ⟨.ok (.ofDialect d), log⟩) →
      ∃ b d, s.StoresUnder st b ∧ s.Makes st d ∧
        (s.step st).1.dialects = s.dialects.insert b d := fun b d log htarget hmakes h =>
    ⟨b, d, ⟨htarget, _, congrArg (·.2.outcome) h⟩, hmakes, congrArg (·.1.dialects) h⟩
  cases st with
  | create b selector =>
    cases hd : selector.dialect? with
    | none => exact .inr (hrefused _ _ (step_create_of_none hd b))
    | some d => exact .inl (hstored b d _ rfl (makes_of_dialect? hd b) (step_create_of_some hd b))
  | adopt b draft =>
    cases hd : s.drafts.get? draft with
    | none => exact .inr (hrefused _ _ (withStored_of_none hd _))
    | some d => exact .inl (hstored b d _ rfl (.adopted hd) (withStored_of_some hd _))
  | extend b parent e =>
    cases hp : s.dialects.get? parent with
    | none => exact .inr (hrefused _ _ (withStored_of_none hp _))
    | some p =>
      have hmakes : s.Makes (.extend b parent e) (p.extend e) :=
        .extended hp (p.name_extend e) (p.find?_extend e)
      exact .inl (hstored b _ _ rfl hmakes (withStored_of_some hp _))
  | _ => exact .inr ⟨not_storesUnder_of_dialectTarget? rfl, dialects_step_of_dialectTarget? rfl⟩

/-- Only one name is stored under. -/
theorem StoresUnder.eq {st : Step} {b' : String} (h : s.StoresUnder st b)
    (h' : s.StoresUnder st b') : b' = b :=
  Option.some.inj (h'.1.symm.trans h.1)

/-- What is stored under a name is what the step makes. -/
theorem StoresUnder.exists_makes {st : Step} (h : s.StoresUnder st b) :
    ∃ d, s.Makes st d ∧ (s.step st).1.dialects = s.dialects.insert b d := by
  rcases step_dialects s st with ⟨b', d, hstores, hmakes, hdialects⟩ | ⟨hnone, -⟩
  · obtain rfl := h.eq hstores
    exact ⟨d, hmakes, hdialects⟩
  · exact absurd h (hnone b)

/-- A step keeps every dialect under whose name it does not store another one. -/
theorem get?_dialects_step {st : Step} (h : ¬ s.StoresUnder st b) :
    (s.step st).1.dialects.get? b = s.dialects.get? b := by
  rcases step_dialects s st with ⟨b', d, hstores, -, hdialects⟩ | ⟨-, hdialects⟩
  · have hne : b ≠ b' := by
      rintro rfl
      exact h hstores
    rw [hdialects, Table.get?_insert_of_ne _ hne]
  · rw [hdialects]

theorem spares_nil (s : Session) (b : String) : s.Spares b [] := by
  intro before st hprefix
  have hlength := hprefix.length_le
  simp at hlength

/-- A course spares a name if its first step does and what follows does. -/
theorem spares_cons {st : Step} {steps : List Step} :
    s.Spares b (st :: steps) ↔ ¬ s.StoresUnder st b ∧ (s.step st).1.Spares b steps := by
  constructor
  · intro h
    refine ⟨h [] st ⟨steps, rfl⟩, fun before st' hprefix => ?_⟩
    exact h (st :: before) st' (List.cons_prefix_cons.2 ⟨rfl, hprefix⟩)
  · rintro ⟨hfirst, hrest⟩ before st' hprefix
    cases before with
    | nil =>
      obtain ⟨rfl, -⟩ := List.cons_prefix_cons.1 hprefix
      exact hfirst
    | cons st'' before =>
      obtain ⟨rfl, htail⟩ := List.cons_prefix_cons.1 hprefix
      exact hrest before st' htail

/-- **A course of steps keeps every dialect that it spares.** -/
theorem get?_dialects_after {steps : List Step} (h : s.Spares b steps) :
    (s.after steps).dialects.get? b = s.dialects.get? b := by
  induction steps generalizing s with
  | nil => rfl
  | cons st steps ih =>
    obtain ⟨hfirst, hrest⟩ := spares_cons.1 h
    rw [after_cons, ih hrest, get?_dialects_step hfirst]

/-- The tables of a stored dialect are shown as they are. -/
theorem answer_tables {d : Dialect} (h : s.dialects.get? b = some d) (table : String) :
    (s.step (.ask b table .tables)).2 = pure (.ofTables d) :=
  congrArg Prod.snd (withStored_of_some h _)

/-- A stored dialect answers for a word, or fails, whatever else the session keeps. The file is the
only thing in a failure that it does not give. -/
theorem answer_word {d : Dialect} (h : s.dialects.get? b = some d) (table : String) (l : Lookup) :
    (s.step (.ask b table (.word l))).2.mapError Failure.unfiled =
      match d.find? l with
      | some word => pure (.text word)
      | none => ⟨.error (.diagnostic ⟨.unmapped ⟨d.name, l⟩, .absent, none⟩),
          [.lookupFailed ⟨d.name, l⟩]⟩ := by
  have hstep : (s.step (.ask b table (.word l))).2 =
      (Query.word l).answer s.file d (s.symbolTable table) :=
    congrArg Prod.snd (withStored_of_some h _)
  rw [hstep, Query.answer_word]
  cases d.find? l <;> rfl

/-- **Dialects are snapshots.** A step that stores a dialect under a name makes it from what is there
at that moment, and leaves all other dialects alone. After any further steps that do not store under
that name the dialect is the same, and so are its tables and its words; where it has none, only the
file in the failure can be another one. -/
theorem dialect_is_snapshot {st : Step} (h : s.StoresUnder st b) :
    let s' := (s.step st).1
    (∃ d, s.Makes st d ∧ s'.dialects.get? b = some d ∧
      ∀ table, (s'.step (.ask b table .tables)).2 = pure (.ofTables d)) ∧
    (∀ b', b' ≠ b → s'.dialects.get? b' = s.dialects.get? b') ∧
    ∀ later, s'.Spares b later →
      (s'.after later).dialects.get? b = s'.dialects.get? b ∧
      (∀ table, ((s'.after later).step (.ask b table .tables)).2 =
        (s'.step (.ask b table .tables)).2) ∧
      ∀ table l, ((s'.after later).step (.ask b table (.word l))).2.mapError Failure.unfiled =
        (s'.step (.ask b table (.word l))).2.mapError Failure.unfiled := by
  intro s'
  obtain ⟨d, hmakes, hdialects⟩ := h.exists_makes
  have hd : s'.dialects.get? b = some d := by
    rw [hdialects]
    exact Table.get?_insert_self _ _ _
  refine ⟨⟨d, hmakes, hd, answer_tables hd⟩, fun b' hb' => ?_, fun later hlater => ?_⟩
  · rw [hdialects]
    exact Table.get?_insert_of_ne _ hb' _
  · have hsame := get?_dialects_after hlater
    have hlast : (s'.after later).dialects.get? b = some d := hsame.trans hd
    refine ⟨hsame, fun table => ?_, fun table l => ?_⟩
    · rw [answer_tables hlast, answer_tables hd]
    · rw [answer_word hlast, answer_word hd]

/-- A dialect that was made from a draft keeps its word when the draft is given another one, when a
built-in dialect is asked for in vain under its name, and when another dialect extends it. -/
theorem amended_draft_leaves_dialect :
    let toy : Dialect := ⟨"Toy", .ofList [("float", "float")], .empty⟩
    let s := (Session.start none).after [.draft "base" toy]
    let st : Step := .adopt "toy" "base"
    let later : List Step := [.amend "base" (.ofList [("float", "half")]) .empty,
      .create "toy" (.text "Metal"), .extend "other" "toy" ⟨some (.ofList [("float", "real")]), none⟩,
      .setFile (some "Foo.cs")]
    let s' := (s.step st).1
    s.StoresUnder st "toy" ∧ s'.Spares "toy" later ∧
      ((s'.after later).drafts.get? "base").bind (·.find? (.type "float")) = some "half" ∧
      ((s'.after later).dialects.get? "other").bind (·.find? (.type "float")) = some "real" ∧
      ((s'.after later).dialects.get? "toy").bind (·.find? (.type "float")) = some "float" := by
  intro toy s st later s'
  have h : s.StoresUnder st "toy" := ⟨rfl, _, rfl⟩
  have hspares : s'.Spares "toy" later := by
    refine spares_cons.2 ⟨fun hs => absurd hs.1 (by decide), ?_⟩
    refine spares_cons.2 ⟨not_storesUnder_of_error rfl _, ?_⟩
    refine spares_cons.2 ⟨fun hs => absurd hs.1 (by decide), ?_⟩
    exact spares_cons.2 ⟨fun hs => absurd hs.1 (by decide), spares_nil _ _⟩
  obtain ⟨-, -, hkept⟩ := dialect_is_snapshot h
  refine ⟨h, hspares, by decide, by decide, ?_⟩
  rw [(hkept later hspares).1]
  decide

end Session

end Shading
