/-!
# Errors of use

Requests that cannot be carried out whatever the source is.
-/

namespace Shading

/-- Why a request cannot be carried out at all. -/
inductive UsageError where
  /-- No dialect is chosen by what is shown. -/
  | unsupportedDialect (shown : String)
  /-- A pool needs at least one worker. -/
  | noWorkers
deriving DecidableEq, Inhabited, Repr

namespace UsageError

/-- The message about it. -/
def text : UsageError → String
  | unsupportedDialect shown => "Unsupported backend type: " ++ shown
  | noWorkers => "max_workers must be greater than 0"

end UsageError

end Shading
