import Shading.Batch.Basic
import Shading.Dialect.Recipe
import Shading.Task

/-!
# Questions to a dialect

Everything that can be asked once a dialect is at hand: its words, its tables and functions in
it. A question changes nothing, so its answer depends on what is given alone.

* `Query.answer_word`: a dialect gives the word that is asked for, or says that it has none.
-/

namespace Shading

/-- Why there is no answer. -/
inductive Failure where
  | diagnostic (d : Diagnostic)
  | usage (e : UsageError)
  /-- Nothing is stored under the name. -/
  | unknownName (name : String)

/-- What is answered. -/
inductive Answer where
  | nothing
  | flag (b : Bool)
  | text (s : String)
  | texts (ss : List String)
  | outcomes (os : List (Except Diagnostic String))
  | results (rs : List Result)
  /-- A dialect, by its name and its summary. -/
  | dialect (name summary : String)
  | types (rows : List (String × String))
  | methods (rows : List (MethodKey × String))
  | tables (types : List (String × String)) (methods : List (MethodKey × String))
  | symbol (s : Option Symbol)
  | diagnostic (d : Diagnostic)
  | diagnostics (ds : List Diagnostic)

namespace Answer

/-- The output of a task as an answer. -/
def ofOutput : Task.Output → Answer
  | .text s => text s
  | .lines ls => texts ls
  | .outcomes os => outcomes os

/-- The answer that shows a dialect. -/
def ofDialect (d : Dialect) : Answer :=
  dialect d.name d.summary

/-- The answer that shows the tables of a dialect. -/
def ofTables (d : Dialect) : Answer :=
  tables d.sortedTypes d.sortedMethods

end Answer

/-- A question to a dialect. -/
inductive Query where
  | summary
  | tables
  | word (l : Lookup)
  | emit (resolution : Resolution) (task : Task)
  | batch (resolution : Resolution) (workers : Option Int) (ds : List Definition)

namespace Query

/-- Answers a question, with the given symbols and file setting. -/
def answer (file : Option String) (d : Dialect) (symbols : SymbolTable) :
    Query → Traced Failure Answer
  | summary => pure (.ofDialect d)
  | tables => pure (.ofTables d)
  | word l =>
    .text <$> ((context .identifiers).find l .absent).mapError .diagnostic
  | emit resolution task =>
    .ofOutput <$> ((context resolution).perform task).mapError .diagnostic
  | batch resolution workers ds =>
    .results <$> ((context resolution).emitAll workers ds).mapError .usage
where
  /-- What a lowering is given when the symbols are read in this way. -/
  context (resolution : Resolution) : Context :=
    ⟨d, resolution.resolver symbols, file⟩

/-- A dialect gives its word, or fails without a place and leaves one record. -/
theorem answer_word (file : Option String) (d : Dialect) (symbols : SymbolTable) (l : Lookup) :
    (word l).answer file d symbols =
      match d.find? l with
      | some w => pure (.text w)
      | none => ⟨.error (.diagnostic (.report file (.unmapped ⟨d.name, l⟩) .absent)),
          [.lookupFailed ⟨d.name, l⟩]⟩ := by
  have hanswer : (word l).answer file d symbols =
      .text <$> ((answer.context file d symbols .identifiers).find l .absent).mapError
        .diagnostic := rfl
  rw [hanswer, Context.find]
  have hdialect : (answer.context file d symbols .identifiers).dialect = d := rfl
  rw [hdialect]
  cases d.find? l <;> rfl

end Query

end Shading
