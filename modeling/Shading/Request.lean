import Shading.Query
import Shading.Source.Equality

/-!
# Requests

The questions that stand on their own. A request that needs a dialect says how to make it, and
one that needs symbols lists them.
-/

namespace Shading

/-- A piece of source that can be compared. -/
inductive SourceItem where
  | node (n : Node)
  | type (t : TypeRef)
deriving DecidableEq

/-- A request. -/
inductive Request where
  /-- Asks a dialect that is made for this one question. -/
  | ask (recipe : Recipe) (symbols : List (String × Symbol)) (query : Query)
  | expandTypes (scalars aggregates : TypeTable) (scope : String)
  | expandMethods (containers : List String) (methods : Table String String)
  | fullName (t : TypeRef)
  | kindLabel (n : Node)
  | same (a b : SourceItem)
  /-- Makes a diagnostic and attaches it to each of the nodes in turn. -/
  | diagnose (cause : Cause) (node : Node) (others : List Node)

namespace Diagnostic

/-- A diagnostic followed by what becomes of it when it is attached to each node in turn. -/
def attachments (file : Option String) (d : Diagnostic) : List Node → List Diagnostic
  | [] => [d]
  | node :: nodes => d :: attachments file (d.reattach file node) nodes

end Diagnostic

namespace Request

/-- Answers a request under a file setting. -/
def answer (file : Option String) : Request → Traced Failure Answer
  | ask recipe symbols query => do
    let d ← recipe.build.mapError .usage
    query.answer file d (.ofList symbols)
  | expandTypes scalars aggregates scope =>
    pure (.types ((typeTable scalars aggregates scope).sortedRows fun a b => a ≤ b))
  | expandMethods containers methods =>
    pure (.methods ((methodTable containers methods).sortedRows MethodKey.le))
  | fullName t => pure (.text t.fullName)
  | kindLabel n => pure (.text n.kind.label)
  | same a b => pure (.flag (a = b))
  | diagnose cause node others =>
    pure (.diagnostics ((Diagnostic.report file cause node).attachments file others))

end Request

end Shading
