import Shading.Dialect.Builtin
import Shading.Proofs.Place

/-!
# Declared and constructed types

A declared type is told by a reference and a constructed one by a symbol. Either gives a simple name
and a scope, and a dialect is asked under the qualified name of both. Where the two mean the same
type, a variable and the construction that is its first value meet the same answer.

* `Symbol.Denotes`: a symbol denotes the type that a reference refers to.
* `Symbol.Denotes.typeName?_eq`: the two are known under one name, however a missing scope is
  written.
* `Context.declaration_agrees_with_construction`: **a declared type and a construction of it have
  the same word, or fail about the same name.**
-/

namespace Shading

/-- The symbol denotes the type that the reference refers to. Without a scope, the scope may be
missing in one of them and empty in the other. -/
structure Symbol.Denotes (s : Symbol) (t : TypeRef) : Prop where
  kind : s.kind = .type
  name : s.name = t.name
  scope : s.scope = t.scope ∨ s.scope.getD "" = "" ∧ t.scope.getD "" = ""

/-- A reference and a symbol that denotes its type give one name. -/
theorem Symbol.Denotes.typeName?_eq {s : Symbol} {t : TypeRef} (h : s.Denotes t) :
    s.typeName? = some t.fullName := by
  rw [typeName?_eq_some, TypeRef.fullName, h.name]
  refine ⟨h.kind, ?_⟩
  rcases h.scope with hsame | ⟨hs, ht⟩
  · rw [hsame]
  · rw [qualifiedName_of_unscoped hs, qualifiedName_of_unscoped ht]

/-- The declaration of one variable with a first value. -/
def Node.declaring (loc declLoc varLoc initLoc : Location) (t : TypeRef) (x : String)
    (value : Node) : Node :=
  .localDeclaration loc ⟨declLoc, t, [⟨varLoc, x, some ⟨initLoc, value⟩⟩]⟩

/-- A failure that was found at a statement has the place of the statement already. -/
theorem Diagnostic.locate_report_self (setting : Option String) (cause : Cause) (n : Node) :
    (report setting cause n).locate setting n = report setting cause n := by
  unfold locate
  split <;> rfl

namespace Context

variable {ctx : Context} {loc declLoc varLoc initLoc listLoc : Location} {t : TypeRef} {s : Symbol}
  {type value : Node} {args : List Argument} {x indent token : String}

theorem constructedType_of_denotes (hresolve : ctx.resolve type = some s) (hs : s.Denotes t)
    (site : Node) : ctx.constructedType type site = .ok t.fullName := by
  rw [constructedType_eq_ok, hresolve]
  exact hs.typeName?_eq

/-- For its word a construction asks under the name of the declared type. -/
theorem constructor_of_denotes (hresolve : ctx.resolve type = some s) (hs : s.Denotes t)
    (site : Node) : ctx.constructor type site = ctx.find (.type t.fullName) site := by
  rw [constructor, constructedType_of_denotes hresolve hs]

theorem lowerExpr_construction_of_none (hresolve : ctx.resolve type = some s) (hs : s.Denotes t)
    (h : ctx.dialect.find? (.type t.fullName) = none) :
    (ctx.lowerExpr (.objectCreation loc type listLoc args)).outcome =
      .error (.report ctx.file (.unmapped ⟨ctx.dialect.name, .type t.fullName⟩)
        (.objectCreation loc type listLoc args)) := by
  rw [lowerExpr, constructor_of_denotes hresolve hs, find_of_none h]
  rfl

/-- With a word for its type a construction comes to what its arguments come to. -/
theorem lowerExpr_construction_of_some (hresolve : ctx.resolve type = some s) (hs : s.Denotes t)
    (h : ctx.dialect.find? (.type t.fullName) = some token) :
    ctx.lowerExpr (.objectCreation loc type listLoc args) =
      ctx.lowerArguments args >>= fun es => pure (.call token es) := by
  rw [lowerExpr, constructor_of_denotes hresolve hs, find_of_some h, pure_bind]

theorem lowerUnlocated_declaring_of_none
    (h : ctx.dialect.find? (.type t.fullName) = none) :
    (ctx.lowerUnlocated (.declaring loc declLoc varLoc initLoc t x value)).outcome =
      .error (.report ctx.file (.unmapped ⟨ctx.dialect.name, .type t.fullName⟩)
        (.declaring loc declLoc varLoc initLoc t x value)) := by
  rw [Node.declaring, lowerUnlocated, lowerDeclaration, find_of_none h]
  rfl

/-- With a word for its type a declaration comes to what its first value comes to. -/
theorem lowerUnlocated_declaring_of_some
    (h : ctx.dialect.find? (.type t.fullName) = some token) :
    ctx.lowerUnlocated (.declaring loc declLoc varLoc initLoc t x value) =
      ctx.lowerExpr value >>= fun e => pure (.declare token x (some e)) := by
  rw [Node.declaring, lowerUnlocated, lowerDeclaration, find_of_some h, pure_bind, lowerInitializer,
    bind_assoc]
  simp only [pure_bind]

/-- Arguments that are written are lowered first. -/
theorem outcome_expressionText_argumentList_eq_ok {text : String} :
    (ctx.expressionText (.argumentList listLoc args)).outcome = .ok text ↔
      ∃ es, (ctx.lowerArguments args).outcome = .ok es ∧
        text = Target.commaSeparated (Target.Expr.texts es) := by
  simp only [expressionText, Traced.outcome_bind_eq_ok, Traced.outcome_pure, Except.ok.injEq,
    outcome_lowerExpr_argumentList_eq_ok]
  constructor
  · rintro ⟨_, ⟨es, hes, rfl⟩, rfl⟩
    exact ⟨es, hes, rfl⟩
  · rintro ⟨es, hes, rfl⟩
    exact ⟨_, ⟨es, hes, rfl⟩, rfl⟩

theorem outcome_expressionText_argumentList_eq_error {e : Diagnostic} :
    (ctx.expressionText (.argumentList listLoc args)).outcome = .error e ↔
      (ctx.lowerArguments args).outcome = .error e := by
  rw [expressionText, Traced.outcome_bind_pure_eq_error, lowerExpr,
    Traced.outcome_bind_pure_eq_error]

/-- The line of a declaration whose first value is a call. -/
theorem line_declare_call (indent token x : String) (es : List Target.Expr) :
    (Target.Statement.declare token x (some (.call token es))).line indent =
      indent ++ token ++ " " ++ x ++ " = " ++ token ++ "(" ++
        Target.commaSeparated (Target.Expr.texts es) ++ ")" ++ ";" := by
  have hgives : " = " = " " ++ "= " := rfl
  simp only [Target.Statement.line, Target.Statement.text, Target.Expr.text, hgives,
    String.append_assoc]

/-- A statement is written as it is lowered, whether or not it gives its place to failures. -/
theorem outcome_perform_of_lowerUnlocated_ok {n : Node} {st : Target.Statement}
    (h : (ctx.lowerUnlocated n).outcome = .ok st) (indent : String) :
    (ctx.perform (.unlocated indent n)).outcome = .ok (.text (st.line indent)) ∧
      (ctx.perform (.statement indent n)).outcome = .ok (.text (st.line indent)) := by
  have hstatement : (ctx.lowerStatement n).outcome = .ok st := Traced.outcome_mapError_eq_ok.2 h
  exact ⟨Traced.outcome_bind_eq_ok.2 ⟨st, h, rfl⟩,
    Traced.outcome_bind_eq_ok.2 ⟨st, hstatement, rfl⟩⟩

theorem outcome_perform_of_lowerUnlocated_error {n : Node} {e : Diagnostic}
    (h : (ctx.lowerUnlocated n).outcome = .error e) (indent : String) :
    (ctx.perform (.unlocated indent n)).outcome = .error e ∧
      (ctx.perform (.statement indent n)).outcome = .error (e.locate ctx.file n) := by
  refine ⟨Traced.outcome_bind_eq_error.2 (.inl h), Traced.outcome_bind_eq_error.2 (.inl ?_)⟩
  rw [lowerStatement, Traced.mapError, h]
  rfl

/-- **A declared type and a construction of it agree.** Both are looked up under one name. If the
dialect has no word for it, the declaration fails, and so does the construction by itself, about
that name. If it has one, the line has it at both places, unless the arguments fail: then the line
fails as they do. -/
theorem declaration_agrees_with_construction (hresolve : ctx.resolve type = some s)
    (hs : s.Denotes t) (loc declLoc varLoc initLoc creationLoc listLoc : Location)
    (x indent : String) (args : List Argument) :
    let creation : Node := .objectCreation creationLoc type listLoc args
    let declaration : Node := .declaring loc declLoc varLoc initLoc t x creation
    let row : Node := .argumentList listLoc args
    ctx.constructedType type creation = .ok t.fullName ∧
    (ctx.dialect.find? (.type t.fullName) = none →
      ∃ e e', (ctx.perform (.unlocated indent declaration)).outcome = .error e ∧
        (ctx.perform (.statement indent declaration)).outcome = .error e ∧
        (ctx.perform (.expression creation)).outcome = .error e' ∧
        e.kind = .unmappedName ∧ e'.kind = .unmappedName ∧ e'.text = e.text ∧
        e.text = (Unmapped.mk ctx.dialect.name (.type t.fullName)).text) ∧
    ∀ token, ctx.dialect.find? (.type t.fullName) = some token →
      (∀ text, (ctx.expressionText row).outcome = .ok text →
        let line := indent ++ token ++ " " ++ x ++ " = " ++ token ++ "(" ++ text ++ ")" ++ ";"
        (ctx.perform (.unlocated indent declaration)).outcome = .ok (.text line) ∧
          (ctx.perform (.statement indent declaration)).outcome = .ok (.text line)) ∧
      ∀ e, (ctx.expressionText row).outcome = .error e →
        (ctx.perform (.unlocated indent declaration)).outcome = .error e ∧
          (ctx.perform (.statement indent declaration)).outcome =
            .error (e.locate ctx.file declaration) := by
  intro creation declaration row
  refine ⟨constructedType_of_denotes hresolve hs creation, fun hnone => ?_, fun token htoken => ?_⟩
  · let cause : Cause := .unmapped ⟨ctx.dialect.name, .type t.fullName⟩
    have hdeclaration : (ctx.lowerUnlocated declaration).outcome =
        .error (.report ctx.file cause declaration) := lowerUnlocated_declaring_of_none hnone
    have hcreation : (ctx.lowerExpr creation).outcome = .error (.report ctx.file cause creation) :=
      lowerExpr_construction_of_none hresolve hs hnone
    obtain ⟨hunlocated, hstatement⟩ := outcome_perform_of_lowerUnlocated_error hdeclaration indent
    rw [Diagnostic.locate_report_self] at hstatement
    have hexpression : (ctx.perform (.expression creation)).outcome =
        .error (.report ctx.file cause creation) := by
      rw [perform, Traced.outcome_bind_pure_eq_error, expressionText,
        Traced.outcome_bind_pure_eq_error]
      exact hcreation
    exact ⟨_, _, hunlocated, hstatement, hexpression, rfl, rfl, rfl, rfl⟩
  · have hdeclaration : ctx.lowerUnlocated declaration =
        ctx.lowerArguments args >>= fun es => pure (.declare token x (some (.call token es))) := by
      rw [lowerUnlocated_declaring_of_some htoken,
        lowerExpr_construction_of_some hresolve hs htoken, bind_assoc]
      simp only [pure_bind]
    refine ⟨fun text htext => ?_, fun e he => ?_⟩
    · obtain ⟨es, hes, rfl⟩ := outcome_expressionText_argumentList_eq_ok.1 htext
      have hlowered : (ctx.lowerUnlocated declaration).outcome =
          .ok (.declare token x (some (.call token es))) := by
        rw [hdeclaration]
        exact Traced.outcome_bind_eq_ok.2 ⟨es, hes, rfl⟩
      rw [← line_declare_call]
      exact outcome_perform_of_lowerUnlocated_ok hlowered indent
    · have hfails : (ctx.lowerUnlocated declaration).outcome = .error e := by
        rw [hdeclaration, Traced.outcome_bind_pure_eq_error]
        exact outcome_expressionText_argumentList_eq_error.1 he
      exact outcome_perform_of_lowerUnlocated_error hfails indent

/-- Vectors of a scope, which the symbol and the reference both name, and vectors without one, for
which the reference has an empty scope. A type of another scope has no word in either place. -/
theorem scoped_vector_agrees :
    let four : Symbol := .type "Vector4" (some "System.Numerics")
    let three : Symbol := .type "Vector3" none
    let other : Symbol := .type "Vector4" (some "Foo")
    let t : TypeRef := ⟨"Vector4", some "System.Numerics"⟩
    let t' : TypeRef := ⟨"Vector3", some ""⟩
    let t'' : TypeRef := ⟨"Vector4", some "Foo"⟩
    let symbols : SymbolTable := .ofList [("Four", four), ("Three", three), ("Other", other)]
    let ctx : Context := ⟨.hlsl, symbols.byIdentifier, none⟩
    let type (id : String) : Node := .name .unknown id
    let zero : Argument := ⟨.unknown, .literal .unknown "0.0"⟩
    let creation (id : String) : Node := .objectCreation .unknown (type id) .unknown [zero, zero]
    let declaration (t : TypeRef) (id : String) : Node :=
      .declaring .unknown .unknown .unknown .unknown t "v" (creation id)
    (ctx.resolve (type "Four") = some four ∧ four.Denotes t ∧
      (ctx.perform (.statement "  " (declaration t "Four"))).outcome =
        .ok (.text "  float4 v = float4(0.0, 0.0);")) ∧
    (ctx.resolve (type "Three") = some three ∧ three.Denotes t' ∧
      (ctx.perform (.statement "  " (declaration t' "Three"))).outcome =
        .ok (.text "  float3 v = float3(0.0, 0.0);")) ∧
    ctx.resolve (type "Other") = some other ∧ other.Denotes t'' ∧
      ∃ e, (ctx.perform (.expression (creation "Other"))).outcome = .error e ∧
        e.text = "Type 'Foo.Vector4' has no HLSL equivalent" := by
  intro four three other t t' t'' symbols ctx type zero creation declaration
  have hfour : ctx.resolve (type "Four") = some four := rfl
  have hthree : ctx.resolve (type "Three") = some three := rfl
  have hother : ctx.resolve (type "Other") = some other := rfl
  have hs : four.Denotes t := ⟨rfl, rfl, .inl rfl⟩
  have hs' : three.Denotes t' := ⟨rfl, rfl, .inr ⟨rfl, rfl⟩⟩
  have hs'' : other.Denotes t'' := ⟨rfl, rfl, .inl rfl⟩
  have htext : (ctx.expressionText (.argumentList .unknown [zero, zero])).outcome =
      .ok "0.0, 0.0" := rfl
  have htoken : ctx.dialect.find? (.type t.fullName) = some "float4" := by decide +kernel
  have htoken' : ctx.dialect.find? (.type t'.fullName) = some "float3" := by decide +kernel
  have hnone : ctx.dialect.find? (.type t''.fullName) = none := by decide +kernel
  obtain ⟨-, -, hsome⟩ := declaration_agrees_with_construction hfour hs .unknown .unknown
    .unknown .unknown .unknown .unknown "v" "  " [zero, zero]
  obtain ⟨-, -, hsome'⟩ := declaration_agrees_with_construction hthree hs' .unknown .unknown
    .unknown .unknown .unknown .unknown "v" "  " [zero, zero]
  obtain ⟨-, hfails, -⟩ := declaration_agrees_with_construction hother hs'' .unknown .unknown
    .unknown .unknown .unknown .unknown "v" "  " [zero, zero]
  obtain ⟨e, e', -, -, he', -, -, hsame, htext'⟩ := hfails hnone
  refine ⟨⟨hfour, hs, ((hsome _ htoken).1 _ htext).2⟩,
    ⟨hthree, hs', ((hsome' _ htoken').1 _ htext).2⟩, hother, hs'', e', he', ?_⟩
  rw [hsame, htext']
  rfl

end Context

end Shading
