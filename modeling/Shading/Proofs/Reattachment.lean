import Shading.Proofs.Session
import Shading.Request

/-!
# Attaching diagnostics again

A diagnostic that is attached to another node is made anew from its cause, at that node and in the
file of that moment. Nothing of the earlier attachments is left in it, however many there were, and
none of them is changed by it. So the diagnostics of a session can be told from its steps: from the
causes that were reported first, handed on from name to name, and from the file settings.

* `Origins`: the file in force and the causes that go by the stored names, told from the steps.
* `Session.origins_step`, `Session.origins_after`: what one step hands on, and what a course does.
* `Diagnostic.States`: what a diagnostic says.
* `Session.reattachments_are_anew`: **attaching a diagnostic again is reporting its cause again.**
-/

namespace Shading

/-- The file setting in force, and for every name of a diagnostic the cause that was first reported
for it. -/
structure Origins where
  file : Option String
  causes : Table String Cause

namespace Origins

/-- What a step reports: under which name, for which cause and at which node. To attach a diagnostic
to a node is to report the cause that goes by its name. -/
def reported? (o : Origins) : Step → Option (String × Cause × Node)
  | .diagnose target cause node => some (target, cause, node)
  | .reattach target source node => (o.causes.get? source).map (target, ·, node)
  | _ => none

/-- The file setting after a step. -/
def fileAfter (o : Origins) : Step → Option String
  | .setFile file => file
  | _ => o.file

/-- The origins after a step. -/
def next (o : Origins) (st : Step) : Origins :=
  match o.reported? st with
  | some (target, cause, _) => ⟨o.fileAfter st, o.causes.insert target cause⟩
  | none => ⟨o.fileAfter st, o.causes⟩

/-- The origins after several steps. -/
def after (o : Origins) (steps : List Step) : Origins :=
  steps.foldl next o

/-- The step that reports the same as a new diagnostic. -/
def anew (o : Origins) (st : Step) : Step :=
  match o.reported? st with
  | some (target, cause, node) => .diagnose target cause node
  | none => st

/-- The steps with nothing attached again, and everything reported anew instead. -/
def allAnew (o : Origins) : List Step → List Step
  | [] => []
  | st :: steps => o.anew st :: (o.next st).allAnew steps

end Origins

/-- The name under which a step is to store a diagnostic. -/
def Step.diagnosticTarget? : Step → Option String
  | diagnose target _ _ | reattach target _ _ => some target
  | _ => none

/-- What is reported under a name is meant to be stored under it. -/
theorem Origins.diagnosticTarget?_of_reported {o : Origins} {st : Step} {target : String}
    {cause : Cause} {node : Node} (h : o.reported? st = some (target, cause, node)) :
    st.diagnosticTarget? = some target := by
  cases st with
  | diagnose =>
    cases h
    rfl
  | reattach =>
    obtain ⟨cause', -, heq⟩ := Option.map_eq_some_iff.1 h
    cases heq
    rfl
  | _ => cases h

/-- The diagnostic `e` says that `cause` was found at `site` under a file setting. Its message names
the file by the last part of its path, if there is a file, then the line of the site if it has one,
and then the column if it has that too. -/
structure Diagnostic.States (setting : Option String) (cause : Cause) (site : Node)
    (e : Diagnostic) : Prop where
  kind : e.kind = cause.kind
  text : e.text = cause.text
  file : e.file = setting.filter (· ≠ "")
  node : e.node = site
  line : e.line = site.loc.line
  column : e.column = site.loc.column
  message : e.message = cause.text ++ e.file.elim "" (fun path => " in " ++ Text.baseName path) ++
    site.loc.line.elim "" fun line => " at line " ++ toString line ++
      site.loc.column.elim "" fun column => ", column " ++ toString column

/-- A new diagnostic says what it was made from. -/
theorem Diagnostic.states_report (setting : Option String) (cause : Cause) (node : Node) :
    (report setting cause node).States setting cause node := by
  refine ⟨rfl, rfl, rfl, rfl, rfl, rfl, ?_⟩
  have hfile : (report setting cause node).fileText =
      (report setting cause node).file.elim "" fun path => " in " ++ Text.baseName path := by
    unfold fileText
    cases (report setting cause node).file <;> rfl
  have hplace : node.loc.text = node.loc.line.elim "" fun line => " at line " ++ toString line ++
      node.loc.column.elim "" fun column => ", column " ++ toString column := by
    unfold Location.text
    cases node.loc.line with
    | none => rfl
    | some line => cases node.loc.column <;> simp [String.append_assoc]
  rw [message, hfile, ← hplace]
  rfl

/-- Each attachment of a new diagnostic is a new diagnostic. -/
theorem Diagnostic.attachments_report (file : Option String) (cause : Cause) (node : Node)
    (others : List Node) :
    (report file cause node).attachments file others =
      (node :: others).map (report file cause) := by
  induction others generalizing node with
  | nil => rfl
  | cons other others ih =>
    rw [attachments, List.map_cons, ← ih other]
    rfl

namespace Session

variable {s : Session} {st : Step} {b target : String} {cause : Cause} {node : Node}

/-- The origins of what a session keeps. -/
def origins (s : Session) : Origins :=
  ⟨s.file, s.diagnostics.mapValues Diagnostic.cause⟩

theorem get?_origins (s : Session) (name : String) :
    s.origins.causes.get? name = (s.diagnostics.get? name).map Diagnostic.cause :=
  Table.get?_mapValues _ _ _

/-- **A step that reports a cause stores a new diagnostic for it.** -/
theorem step_of_reported (h : s.origins.reported? st = some (target, cause, node)) :
    s.step st = s.storeDiagnostic target (.report s.file cause node) := by
  cases st with
  | diagnose target' cause' node' =>
    cases h
    rfl
  | reattach target' source node' =>
    obtain ⟨cause', hcause, heq⟩ := Option.map_eq_some_iff.1 h
    cases heq
    rw [get?_origins] at hcause
    obtain ⟨e, he, rfl⟩ := Option.map_eq_some_iff.1 hcause
    exact withStored_of_some he _
  | _ => cases h

/-- A step that reports nothing leaves the diagnostics alone. -/
theorem diagnostics_step_of_not_reported (h : s.origins.reported? st = none) :
    (s.step st).1.diagnostics = s.diagnostics := by
  cases st with
  | diagnose => cases h
  | reattach target source node =>
    rw [Origins.reported?, Option.map_eq_none_iff, get?_origins, Option.map_eq_none_iff] at h
    exact congrArg (·.1.diagnostics) (withStored_of_none h _)
  | create target selector =>
    unfold step
    dsimp only
    split <;> rfl
  | amend | adopt | extend | ask | showDiagnostic =>
    exact withStored_induction (P := (·.diagnostics = s.diagnostics)) rfl fun _ => rfl
  | _ => rfl

/-- Only a step that sets the file changes it. -/
theorem file_step (s : Session) (st : Step) : (s.step st).1.file = s.origins.fileAfter st := by
  cases st with
  | create target selector =>
    unfold step
    dsimp only
    split <;> rfl
  | amend | adopt | extend | ask | reattach | showDiagnostic =>
    exact withStored_induction (P := (·.file = s.file)) rfl fun _ => rfl
  | _ => rfl

/-- **What a step hands on.** -/
theorem origins_step (s : Session) (st : Step) : (s.step st).1.origins = s.origins.next st := by
  have hfile := file_step s st
  unfold Origins.next
  cases h : s.origins.reported? st with
  | none =>
    have hdiagnostics := diagnostics_step_of_not_reported h
    unfold origins at hfile ⊢
    rw [hfile, hdiagnostics]
  | some report =>
    obtain ⟨target, cause, node⟩ := report
    have hstored : (s.step st).1.diagnostics =
        s.diagnostics.insert target (.report s.file cause node) := by
      rw [step_of_reported h]
      rfl
    unfold origins at hfile ⊢
    rw [hfile, hstored, Table.mapValues_insert]
    rfl

theorem origins_after (s : Session) (steps : List Step) :
    (s.after steps).origins = s.origins.after steps := by
  induction steps generalizing s with
  | nil => rfl
  | cons st steps ih =>
    rw [after_cons, ih, origins_step]
    rfl

/-- **To attach a diagnostic again is to report its cause again.** -/
theorem step_anew (s : Session) (st : Step) : s.step (s.origins.anew st) = s.step st := by
  unfold Origins.anew
  cases h : s.origins.reported? st with
  | none => rfl
  | some report =>
    obtain ⟨target, cause, node⟩ := report
    exact (step_of_reported h).symm

/-- A course in which everything is reported anew has the same answers. -/
theorem answers_allAnew (s : Session) (steps : List Step) :
    s.answers (s.origins.allAnew steps) = s.answers steps := by
  induction steps generalizing s with
  | nil => rfl
  | cons st steps ih =>
    rw [Origins.allAnew, answers_cons, answers_cons, step_anew, ← origins_step, ih]

/-- A step keeps the diagnostics of all other names. -/
theorem get?_diagnostics_step (h : st.diagnosticTarget? ≠ some b) :
    (s.step st).1.diagnostics.get? b = s.diagnostics.get? b := by
  cases hr : s.origins.reported? st with
  | none => rw [diagnostics_step_of_not_reported hr]
  | some report =>
    obtain ⟨target, cause, node⟩ := report
    have hne : b ≠ target := by
      rintro rfl
      exact h (Origins.diagnosticTarget?_of_reported hr)
    rw [step_of_reported hr]
    exact Table.get?_insert_of_ne _ hne _

/-- A course keeps a diagnostic until a step is to store another one under its name. -/
theorem get?_diagnostics_after {steps : List Step}
    (h : ∀ st ∈ steps, st.diagnosticTarget? ≠ some b) :
    (s.after steps).diagnostics.get? b = s.diagnostics.get? b := by
  induction steps generalizing s with
  | nil => rfl
  | cons st steps ih =>
    obtain ⟨hfirst, hrest⟩ := List.forall_mem_cons.1 h
    rw [after_cons, ih hrest, get?_diagnostics_step hfirst]

/-- **Attaching a diagnostic again accumulates nothing.** After any steps of a session, what is
reported or attached again under a name is stored and answered as a new diagnostic for the cause that
was first reported, at the node that is given and in the file that was set last. It stays as it is
until a step is to store another one under its name. So the answers are the same if everything that
is attached again is reported anew; and where diagnostics are attached in a row, each is a new one. -/
theorem reattachments_are_anew (s : Session) (steps : List Step) :
    let now := s.after steps
    let o := s.origins.after steps
    (∀ st target cause node, o.reported? st = some (target, cause, node) →
      now.step st = now.step (.diagnose target cause node) ∧
      ∃ e, (now.step st).2 = pure (.diagnostic e) ∧ e.States o.file cause node ∧
        ∀ later, (∀ st' ∈ later, st'.diagnosticTarget? ≠ some target) →
          (((now.step st).1.after later).step (.showDiagnostic target)).2 =
            pure (.diagnostic e)) ∧
    s.answers (s.origins.allAnew steps) = s.answers steps ∧
    ∀ file cause node others, (Request.diagnose cause node others).answer file =
      pure (.diagnostics ((node :: others).map (.report file cause))) := by
  intro now o
  have ho : now.origins = o := origins_after s steps
  refine ⟨fun st target cause node hst => ?_, answers_allAnew s steps, ?_⟩
  · rw [← ho] at hst ⊢
    have hstep := step_of_reported hst
    refine ⟨hstep, .report now.file cause node, ?_, Diagnostic.states_report _ _ _, ?_⟩
    · rw [hstep]
      rfl
    · intro later hlater
      have hkept : ((now.step st).1.after later).diagnostics.get? target =
          some (.report now.file cause node) := by
        rw [get?_diagnostics_after hlater, hstep]
        exact Table.get?_insert_self _ _ _
      exact congrArg Prod.snd (withStored_of_some hkept _)
  · intro file cause node others
    rw [← Diagnostic.attachments_report]
    rfl

/-- A diagnostic that went through another file and through a node without a line is attached to one
with a line: nothing of the way is left in it, and what is attached to later leaves it alone. -/
theorem only_last_place_is_named :
    let cause : Cause := .stated .unmappedName "Type 'Fog' has no HLSL equivalent"
    let site : Node := .name ⟨some 9, none⟩ "Fog"
    let s := Session.start (some "/src/Lights.cs")
    let steps : List Step := [.diagnose "a" cause (.name ⟨some 3, some 5⟩ "Fog"),
      .setFile (some "/src/Shaders/Fog.cs"), .reattach "b" "a" (.name ⟨none, some 8⟩ "Fog"),
      .reattach "a" "b" .absent, .setFile (some "/src/Sky.cs")]
    let st : Step := .reattach "c" "a" site
    let later : List Step := [.setFile none, .reattach "a" "c" .absent]
    let now := s.after steps
    (s.origins.after steps).reported? st = some ("c", cause, site) ∧
      (∀ st' ∈ later, st'.diagnosticTarget? ≠ some "c") ∧
      ∃ e, (now.step st).2 = pure (.diagnostic e) ∧
        e.message = "Type 'Fog' has no HLSL equivalent in Sky.cs at line 9" ∧
        (((now.step st).1.after later).step (.showDiagnostic "c")).2 = pure (.diagnostic e) := by
  intro cause site s steps st later now
  have hst : (s.origins.after steps).reported? st = some ("c", cause, site) := rfl
  have hlater : ∀ st' ∈ later, st'.diagnosticTarget? ≠ some "c" := by decide
  obtain ⟨hreported, -⟩ := reattachments_are_anew s steps
  obtain ⟨-, e, he, hstates, hkept⟩ := hreported st "c" cause site hst
  refine ⟨hst, hlater, e, he, ?_, hkept later hlater⟩
  rw [hstates.message, hstates.file]
  decide +kernel

end Session

end Shading
