import Shading.Lowering.Statement
import Shading.Source.Method

/-!
# Lowering of methods

A method becomes a function: its signature under the type tokens of the dialect, then its
statements. A type of the signature that the dialect lacks is reported with the name of the
method and without a place.
-/

namespace Shading

namespace Cause

/-- The same failure, found in the signature of the method `name`. -/
def inSignature (name : String) : Cause → Cause
  | unmapped missing => unmappedInSignature missing name
  | cause => cause

end Cause

namespace Context

/-- Lowers one parameter. -/
def lowerParameter (ctx : Context) (p : Parameter) : Traced Diagnostic Target.Parameter := do
  let token ← ctx.find (.type p.type.fullName) .absent
  pure ⟨token, p.name⟩

/-- Lowers parameters in order. -/
def lowerParameters (ctx : Context) (ps : List Parameter) :
    Traced Diagnostic (List Target.Parameter) :=
  ps.mapM ctx.lowerParameter

/-- Lowers the signature of a method: the type it returns, then its parameters. -/
def lowerSignature (ctx : Context) (m : Method) : Traced Diagnostic Target.Signature :=
  let lowered : Traced Diagnostic Target.Signature := do
    let token ← ctx.find (.type m.returnType.fullName) .absent
    let parameters ← ctx.lowerParameters m.parameters
    pure ⟨token, m.name, parameters⟩
  lowered.mapError fun d => .report ctx.file (d.cause.inSignature m.name) .absent

/-- Lowers a method. -/
def lowerFunction (ctx : Context) (d : Definition) : Traced Diagnostic Target.Function := do
  .note (.functionStarted d.method.name d.body.statements.length)
  let signature ← ctx.lowerSignature d.method
  let body ← ctx.lowerBody d.body.statements
  .note (.functionFinished d.method.name)
  pure ⟨signature, body⟩

/-- The source text of the function that a method becomes, its statements indented by `indent`. -/
def emitIndented (ctx : Context) (indent : String) (d : Definition) :
    Traced Diagnostic String := do
  let function ← ctx.lowerFunction d
  pure (function.text indent)

/-- The source text of the function that a method becomes. -/
def emit (ctx : Context) (d : Definition) : Traced Diagnostic String :=
  ctx.emitIndented "" d

end Context

end Shading
