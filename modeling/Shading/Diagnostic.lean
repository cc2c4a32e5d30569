import Shading.Dialect.Basic
import Shading.Source.Kind
import Shading.Text.FileName

/-!
# Diagnostics

Why a method cannot be expressed in a dialect, and where that was found. A diagnostic keeps its
cause; its message is written from the cause, the node it is attached to and the file that was
current when it was made. Attaching it to another node makes a new diagnostic from the cause.

* `reattach_reattach`: only the last attachment counts.
* `message_of_unlocated`: without a line nothing is said about a place in the file.
-/

namespace Shading

/-- The sorts of failures that callers tell apart. -/
inductive FailureKind where
  | general
  | unsupportedConstruct
  | unresolvedSymbol
  | unmappedName
  | shapeViolation
deriving DecidableEq, Inhabited, Repr

/-- What a node was to be used as. -/
inductive Use where
  | expression
  | argument
  | statement
  | returnValue
deriving DecidableEq, Inhabited, Repr

/-- Why something cannot be expressed. -/
inductive Cause where
  /-- A node of this kind has no such use, or came out blank in it. -/
  | unsupported (use : Use) (kind : Kind)
  /-- A call goes through something other than a bare name. -/
  | indirectCall (kind : Kind)
  /-- The name that is called denotes no method of a known type. -/
  | unresolvedCall (id : String)
  /-- What is constructed denotes no type; `shown` is its name, or its kind if it has none. -/
  | unresolvedType (shown : String)
  /-- The dialect lacks a type or method. -/
  | unmapped (missing : Unmapped)
  /-- The dialect lacks a type in the signature of the method `name`. -/
  | unmappedInSignature (missing : Unmapped) (name : String)
  /-- A declaration declares this number of variables instead of one. -/
  | variableCount (count : Nat)
  /-- A failure that a caller states in its own words. -/
  | stated (kind : FailureKind) (text : String)
deriving DecidableEq, Inhabited, Repr

namespace Cause

/-- The sort of failure. -/
def kind : Cause → FailureKind
  | unsupported .. | indirectCall _ => .unsupportedConstruct
  | unresolvedCall _ | unresolvedType _ => .unresolvedSymbol
  | unmapped _ | unmappedInSignature .. => .unmappedName
  | variableCount _ => .shapeViolation
  | stated kind _ => kind

/-- The message, without any place. -/
def text : Cause → String
  | unsupported .expression kind => "Unsupported expression: " ++ kind.label
  | unsupported .argument kind => kind.label ++ " arguments are not supported"
  | unsupported .statement kind => kind.label ++ " statements are not supported"
  | unsupported .returnValue kind => kind.label ++ " return values are not supported"
  | indirectCall kind =>
    "Function calls must be made through a bare identifier, got " ++ kind.label
  | unresolvedCall id => "Cannot resolve function call: " ++ id
  | unresolvedType shown => "Cannot resolve constructed type: " ++ shown
  | unmapped missing => missing.text
  | unmappedInSignature missing name => missing.text ++ " in signature of '" ++ name ++ "'"
  | variableCount count =>
    "Declarations must declare exactly one variable, got " ++ toString count
  | stated _ text => text

end Cause

/-- A file setting that names a file; the empty setting names none. -/
def fileSetting (setting : Option String) : Option String :=
  setting.filter (· ≠ "")

namespace Location

/-- The place within a file, as messages end with it. A column counts only within a line. -/
def text (loc : Location) : String :=
  match loc.line, loc.column with
  | none, _ => ""
  | some line, none => " at line " ++ toString line
  | some line, some column => " at line " ++ toString line ++ ", column " ++ toString column

end Location

/-- A failure, attached to a node (`absent`: to none) and to a file. -/
structure Diagnostic where
  cause : Cause
  node : Node
  file : Option String

namespace Diagnostic

/-- The diagnostic for `cause` at `node` under a file setting. -/
def report (setting : Option String) (cause : Cause) (node : Node) : Diagnostic :=
  ⟨cause, node, fileSetting setting⟩

/-- The sort of failure. -/
def kind (d : Diagnostic) : FailureKind :=
  d.cause.kind

/-- The message, without any place. -/
def text (d : Diagnostic) : String :=
  d.cause.text

/-- The line of the node. -/
def line (d : Diagnostic) : Option Int :=
  d.node.loc.line

/-- The column of the node, also when its line is not known. -/
def column (d : Diagnostic) : Option Int :=
  d.node.loc.column

/-- The kind of the node, if there is one. -/
def nodeKind? (d : Diagnostic) : Option Kind :=
  match d.node with
  | .absent => none
  | node => some node.kind

/-- The file, as messages name it. -/
def fileText (d : Diagnostic) : String :=
  match d.file with
  | none => ""
  | some path => " in " ++ Text.baseName path

/-- The message with the place of the failure. -/
def message (d : Diagnostic) : String :=
  d.text ++ d.fileText ++ d.node.loc.text

/-- The same failure at another node, under the file setting of now. -/
def reattach (setting : Option String) (node : Node) (d : Diagnostic) : Diagnostic :=
  report setting d.cause node

/-- Gives a diagnostic that has no line the place of the statement around it, if that has one. -/
def locate (setting : Option String) (statement : Node) (d : Diagnostic) : Diagnostic :=
  if d.line = none ∧ statement.loc.line ≠ none then d.reattach setting statement else d

@[simp] theorem cause_reattach (setting : Option String) (node : Node) (d : Diagnostic) :
    (d.reattach setting node).cause = d.cause := rfl

/-- Only the last attachment counts. -/
theorem reattach_reattach (setting setting' : Option String) (node node' : Node)
    (d : Diagnostic) :
    (d.reattach setting node).reattach setting' node' = d.reattach setting' node' := rfl

@[simp] theorem cause_locate (setting : Option String) (statement : Node) (d : Diagnostic) :
    (d.locate setting statement).cause = d.cause := by
  rw [locate]
  split <;> rfl

/-- Without a line nothing is said about a place in the file. -/
theorem message_of_unlocated {d : Diagnostic} (h : d.line = none) :
    d.message = d.text ++ d.fileText := by
  have : d.node.loc.text = "" := by
    rw [line] at h
    simp [Location.text, h]
  rw [message, this, String.append_empty]

end Diagnostic

end Shading
