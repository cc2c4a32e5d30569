import Shading.Symbol.Resolver
import Shading.Trace

/-!
# What a lowering is given

To lower a method takes a dialect, a resolver and the file that is current; none of them changes
on the way. Here are the questions that a lowering puts to them, each with the diagnostic for a
question that has no answer.

* `find_of_some`, `find_of_none`: a look-up answers, or leaves one record and fails.
* `calledMethod_eq_ok`, `constructedType_eq_ok`: what has to hold of a callee or a constructed
  type.
-/

namespace Shading

/-- What a lowering is given besides the method. -/
structure Context where
  dialect : Dialect
  resolve : Resolver
  file : Option String

namespace Context

variable {α : Type}

/-- Fails at `node`. -/
def reject (ctx : Context) (cause : Cause) (node : Node) : Traced Diagnostic α :=
  .fail (.report ctx.file cause node)

/-- The dialect's word for a type or method that is needed at `site`. -/
def find (ctx : Context) (l : Lookup) (site : Node) : Traced Diagnostic String :=
  match ctx.dialect.find? l with
  | some word => pure word
  | none => do
    .note (.lookupFailed ⟨ctx.dialect.name, l⟩)
    ctx.reject (.unmapped ⟨ctx.dialect.name, l⟩) site

/-- The method that the callee of the call `site` denotes. -/
def calledMethod (ctx : Context) (callee site : Node) : Except Diagnostic MethodKey :=
  match callee.ident? with
  | none => .error (.report ctx.file (.indirectCall callee.kind) site)
  | some id =>
    match (ctx.resolve callee).bind Symbol.methodKey? with
    | none => .error (.report ctx.file (.unresolvedCall id) site)
    | some key => .ok key

/-- The type that the construction `site` is of. -/
def constructedType (ctx : Context) (type site : Node) : Except Diagnostic String :=
  match (ctx.resolve type).bind Symbol.typeName? with
  | none =>
    .error (.report ctx.file (.unresolvedType (type.ident?.getD type.kind.label)) site)
  | some name => .ok name

theorem find_of_some {ctx : Context} {l : Lookup} {word : String}
    (h : ctx.dialect.find? l = some word) (site : Node) : ctx.find l site = pure word := by
  rw [find, h]

theorem find_of_none {ctx : Context} {l : Lookup} (h : ctx.dialect.find? l = none)
    (site : Node) :
    ctx.find l site =
      ⟨.error (.report ctx.file (.unmapped ⟨ctx.dialect.name, l⟩) site),
        [.lookupFailed ⟨ctx.dialect.name, l⟩]⟩ := by
  rw [find, h]
  rfl

theorem calledMethod_eq_ok {ctx : Context} {callee site : Node} {key : MethodKey} :
    ctx.calledMethod callee site = .ok key ↔
      callee.kind = .name ∧ (ctx.resolve callee).bind Symbol.methodKey? = some key := by
  rw [calledMethod, ← Node.isSome_ident?]
  cases callee.ident? with
  | none => simp
  | some id => cases (ctx.resolve callee).bind Symbol.methodKey? <;> simp

theorem constructedType_eq_ok {ctx : Context} {type site : Node} {name : String} :
    ctx.constructedType type site = .ok name ↔
      (ctx.resolve type).bind Symbol.typeName? = some name := by
  rw [constructedType]
  cases (ctx.resolve type).bind Symbol.typeName? <;> simp

end Context

end Shading
