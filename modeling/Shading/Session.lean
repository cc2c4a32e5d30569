import Shading.Query

/-!
# Sessions

A session keeps things under names: drafts of dialects, dialects, symbol tables and diagnostics,
besides the file that is current. A step may ask about them or store something. What is stored is
a value, so a dialect made from a draft or from another dialect stays as it was made, whatever
becomes of those.

* `Session.step`: what a step leaves behind and what it answers.
* `Session.run`: the steps of a list in turn; a failure ends only its own step.
-/

namespace Shading

/-- What a session keeps. -/
structure Session where
  file : Option String
  drafts : Table String Dialect
  dialects : Table String Dialect
  symbols : Table String SymbolTable
  diagnostics : Table String Diagnostic

/-- A step of a session. -/
inductive Step where
  | setFile (file : Option String)
  /-- Makes a built-in dialect and stores it. -/
  | create (target : String) (s : Selector)
  /-- Stores a draft. -/
  | draft (target : String) (d : Dialect)
  /-- Adds to a stored draft. -/
  | amend (draft : String) (types : TypeTable) (methods : MethodTable)
  /-- Stores a draft as it is now as a dialect. -/
  | adopt (target draft : String)
  /-- Stores an extension of a stored dialect. -/
  | extend (target dialect : String) (e : Extension)
  /-- Asks a stored dialect, with the symbols of a stored table. -/
  | ask (dialect table : String) (query : Query)
  | addSymbol (table id : String) (s : Symbol)
  | findSymbol (table id : String)
  | resolve (table : String) (resolution : Resolution) (node : Node)
  /-- Makes a diagnostic and stores it. -/
  | diagnose (target : String) (cause : Cause) (node : Node)
  /-- Stores a stored diagnostic, attached to another node. -/
  | reattach (target diagnostic : String) (node : Node)
  | showDiagnostic (diagnostic : String)

namespace Session

/-- A session that keeps nothing yet. -/
def start (file : Option String) : Session :=
  ⟨file, .empty, .empty, .empty, .empty⟩

/-- The symbol table of a name; one that was never added to is empty. -/
def symbolTable (s : Session) (name : String) : SymbolTable :=
  (s.symbols.get? name).getD .empty

/-- Stores a dialect and answers with it. -/
def storeDialect (s : Session) (target : String) (d : Dialect) :
    Session × Traced Failure Answer :=
  ({ s with dialects := s.dialects.insert target d }, pure (.ofDialect d))

/-- Stores a diagnostic and answers with it. -/
def storeDiagnostic (s : Session) (target : String) (d : Diagnostic) :
    Session × Traced Failure Answer :=
  ({ s with diagnostics := s.diagnostics.insert target d }, pure (.diagnostic d))

/-- Goes on with what is stored under a name, or refuses the step. -/
def withStored {α : Type} (s : Session) (t : Table String α) (name : String)
    (f : α → Session × Traced Failure Answer) : Session × Traced Failure Answer :=
  match t.get? name with
  | none => (s, .fail (.unknownName name))
  | some a => f a

/-- One step: the session after it, and its answer. -/
def step (s : Session) : Step → Session × Traced Failure Answer
  | .setFile file => ({ s with file }, pure .nothing)
  | .create target selector =>
    let made := Dialect.create selector
    match made.outcome with
    | .error e => (s, ⟨.error (.usage e), made.log⟩)
    | .ok d =>
      let (s, answer) := s.storeDialect target d
      (s, answer.after made.log)
  | .draft target d => ({ s with drafts := s.drafts.insert target d }, pure .nothing)
  | .amend draft types methods =>
    s.withStored s.drafts draft fun d =>
      let d := d.extend ⟨some types, some methods⟩
      ({ s with drafts := s.drafts.insert draft d }, pure (.ofTables d))
  | .adopt target draft => s.withStored s.drafts draft (s.storeDialect target)
  | .extend target dialect e =>
    s.withStored s.dialects dialect fun d => s.storeDialect target (d.extend e)
  | .ask dialect table query =>
    s.withStored s.dialects dialect fun d => (s, query.answer s.file d (s.symbolTable table))
  | .addSymbol table id symbol =>
    let t := (s.symbolTable table).insert id symbol
    ({ s with symbols := s.symbols.insert table t },
      pure (.texts (t.keys.mergeSort fun a b => a ≤ b)))
  | .findSymbol table id => (s, pure (.symbol ((s.symbolTable table).get? id)))
  | .resolve table resolution node =>
    (s, pure (.symbol (resolution.resolver (s.symbolTable table) node)))
  | .diagnose target cause node => s.storeDiagnostic target (.report s.file cause node)
  | .reattach target diagnostic node =>
    s.withStored s.diagnostics diagnostic fun d =>
      s.storeDiagnostic target (d.reattach s.file node)
  | .showDiagnostic diagnostic =>
    s.withStored s.diagnostics diagnostic fun d => (s, pure (.diagnostic d))

/-- The session after several steps. -/
def after (s : Session) (steps : List Step) : Session :=
  steps.foldl (fun s st => (s.step st).1) s

/-- What several steps in turn answer, each with its own log. -/
def answers (s : Session) : List Step → List (Traced Failure Answer)
  | [] => []
  | st :: steps => (s.step st).2 :: ((s.step st).1).answers steps

/-- What several steps in turn answer, with one log for all of them. -/
def run (s : Session) (steps : List Step) : Traced Failure (List (Except Failure Answer)) :=
  (s.answers steps).mapM Traced.attempt

end Session

end Shading
