import Shading.Proofs.Lowering

/-!
# Words

What a lowering writes consists of words that come from the method or from the dialect, of
operators, and of punctuation. A lexicon says which words and operators are allowed, and a method
is worded by it if everything that its lowering writes is.

* `Context.Worded`: expressions, `Context.WordedStatement`: statements, `Context.WordedDefinition`:
  whole methods.
-/

namespace Shading

/-- The words that a text may consist of. -/
structure Lexicon where
  /-- Names: of variables, members, parameters, functions and types. -/
  IsName : String → Prop
  IsLiteral : String → Prop
  /-- Operators of assignments. -/
  IsOperator : String → Prop

namespace Context

variable (ctx : Context) (lex : Lexicon)

/-- Expressions whose words belong to `lex` and whose members are reached by a dot. Of a callee or
a constructed type only the dialect's word for it is written. -/
inductive Worded : Node → Prop where
  | name {loc : Location} {id : String} : lex.IsName id → Worded (.name loc id)
  | literal {loc : Location} {token : String} : lex.IsLiteral token → Worded (.literal loc token)
  | memberAccess {loc : Location} {target : Node} {member : Ident} :
    Worded target → lex.IsName member.id → Worded (.memberAccess loc target member ".")
  | assignment {loc : Location} {left right : Node} {operator : String} :
    Worded left → lex.IsOperator operator → Worded right →
    Worded (.assignment loc left operator right)
  | initializer {loc : Location} {value : Node} : Worded value → Worded (.initializer ⟨loc, value⟩)
  | argument {loc : Location} {value : Node} : Worded value → Worded (.argument ⟨loc, value⟩)
  | argumentList {loc : Location} {args : List Argument} :
    (∀ a ∈ args, Worded (Argument.value a)) → Worded (.argumentList loc args)
  | invocation {loc listLoc : Location} {callee : Node} {args : List Argument} :
    (∀ f, (ctx.calledFunction callee (.invocation loc callee listLoc args)).outcome = .ok f →
      lex.IsName f) →
    (∀ a ∈ args, Worded (Argument.value a)) → Worded (.invocation loc callee listLoc args)
  | objectCreation {loc listLoc : Location} {type : Node} {args : List Argument} :
    (∀ f, (ctx.constructor type (.objectCreation loc type listLoc args)).outcome = .ok f →
      lex.IsName f) →
    (∀ a ∈ args, Worded (Argument.value a)) → Worded (.objectCreation loc type listLoc args)

/-- Type tokens that belong to `lex`. -/
def WordedType (t : TypeRef) : Prop :=
  ∀ token, ctx.dialect.find? (.type t.fullName) = some token → lex.IsName token

/-- Statements whose words belong to `lex`. -/
inductive WordedStatement : Node → Prop where
  | declaration {loc declLoc varLoc : Location} {type : TypeRef} {x : String} :
    ctx.WordedType lex type → lex.IsName x →
    WordedStatement (.localDeclaration loc ⟨declLoc, type, [⟨varLoc, x, none⟩]⟩)
  | initialization {loc declLoc varLoc initLoc : Location} {type : TypeRef} {x : String}
      {value : Node} :
    ctx.WordedType lex type → lex.IsName x → ctx.Worded lex value →
    WordedStatement (.localDeclaration loc ⟨declLoc, type, [⟨varLoc, x, some ⟨initLoc, value⟩⟩]⟩)
  | effect {loc : Location} {value : Node} :
    ctx.Worded lex value → WordedStatement (.expressionStatement loc value)
  | returnNothing {loc : Location} : WordedStatement (.returnStatement loc .absent)
  | returnValue {loc : Location} {value : Node} :
    ctx.Worded lex value → WordedStatement (.returnStatement loc value)

/-- Methods whose words belong to `lex`. -/
structure WordedDefinition (d : Definition) : Prop where
  name : lex.IsName d.method.name
  types : ∀ t ∈ d.method.signatureTypes, ctx.WordedType lex t
  parameters : ∀ p ∈ d.method.parameters, lex.IsName p.name
  statements : ∀ n ∈ d.body.statements, ctx.WordedStatement lex n

/-- A method that gives its only variable the value `value`. -/
def initializing (type : String) (value : Node) : Definition :=
  ⟨⟨"Foo", ⟨type, none⟩, []⟩,
    .bare [.localDeclaration .unknown
      ⟨.unknown, ⟨type, none⟩, [⟨.unknown, "x", some ⟨.unknown, value⟩⟩]⟩]⟩

theorem wordedDefinition_initializing {ctx : Context} {lex : Lexicon} {type : String} {value : Node}
    (hname : lex.IsName "Foo") (hx : lex.IsName "x") (htype : ctx.WordedType lex ⟨type, none⟩)
    (hvalue : ctx.Worded lex value) : ctx.WordedDefinition lex (initializing type value) where
  name := hname
  types t ht := by
    obtain rfl := List.mem_singleton.1 ht
    exact htype
  parameters := nofun
  statements n hn := by
    obtain rfl := List.mem_singleton.1 hn
    exact .initialization htype hx hvalue

end Context

end Shading
