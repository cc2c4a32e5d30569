import Shading.Proofs.Obstacle

/-!
# What can be lowered

The grammar of the methods that can be lowered, said of their trees and of the answers of the
dialect and the resolver, without lowering anything.

* `Context.Acceptable`: the expressions, `Context.AcceptableStatement`: the statements.
* `Context.acceptable_iff_obstacles_eq_nil`: acceptable expressions are those without obstacles.
* `Context.emit_succeeds_iff`: **a method becomes a source text exactly when the types of its
  signature have tokens and its statements are acceptable.**
-/

namespace Shading

namespace Context

variable (ctx : Context)

/-- Expressions that can be lowered. -/
inductive Acceptable : Node → Prop where
  | name {loc : Location} {id : String} : Acceptable (.name loc id)
  | literal {loc : Location} {token : String} : Acceptable (.literal loc token)
  | memberAccess {loc : Location} {target : Node} {member : Ident} {operator : String} :
    Acceptable target → Acceptable (.memberAccess loc target member operator)
  | assignment {loc : Location} {left right : Node} {operator : String} :
    Acceptable left → Acceptable right → Acceptable (.assignment loc left operator right)
  | initializer {loc : Location} {value : Node} :
    Acceptable value → Acceptable (.initializer ⟨loc, value⟩)
  | argument {loc : Location} {value : Node} :
    Acceptable value → value.blank = false → Acceptable (.argument ⟨loc, value⟩)
  | argumentList {loc : Location} {args : List Argument} :
    (∀ a ∈ args, Acceptable (.argument a)) → Acceptable (.argumentList loc args)
  /-- The callee is a name that denotes a method of a named type, and the dialect has a function
  for it. -/
  | invocation {loc nameLoc listLoc : Location} {id container : String} {args : List Argument}
      {s : Symbol} :
    ctx.resolve (.name nameLoc id) = some s → s.kind = .method →
    s.containingType = some container → container ≠ "" →
    ⟨container, s.name⟩ ∈ ctx.dialect.methods.keys →
    (∀ a ∈ args, Acceptable (.argument a)) →
    Acceptable (.invocation loc (.name nameLoc id) listLoc args)
  /-- The constructed type denotes a type, and the dialect has a token for its qualified name. -/
  | objectCreation {loc listLoc : Location} {type : Node} {args : List Argument} {s : Symbol} :
    ctx.resolve type = some s → s.kind = .type →
    qualifiedName s.scope s.name ∈ ctx.dialect.types.keys →
    (∀ a ∈ args, Acceptable (.argument a)) →
    Acceptable (.objectCreation loc type listLoc args)

/-- Statements that can be lowered. -/
inductive AcceptableStatement : Node → Prop where
  | declaration {loc declLoc varLoc : Location} {type : TypeRef} {x : String} :
    type.fullName ∈ ctx.dialect.types.keys →
    AcceptableStatement (.localDeclaration loc ⟨declLoc, type, [⟨varLoc, x, none⟩]⟩)
  | initialization {loc declLoc varLoc initLoc : Location} {type : TypeRef} {x : String}
      {value : Node} :
    type.fullName ∈ ctx.dialect.types.keys → ctx.Acceptable value →
    AcceptableStatement
      (.localDeclaration loc ⟨declLoc, type, [⟨varLoc, x, some ⟨initLoc, value⟩⟩]⟩)
  | effect {loc : Location} {value : Node} :
    ctx.Acceptable value → value.blank = false →
    AcceptableStatement (.expressionStatement loc value)
  | returnNothing {loc : Location} : AcceptableStatement (.returnStatement loc .absent)
  | returnValue {loc : Location} {value : Node} :
    ctx.Acceptable value → value.blank = false →
    AcceptableStatement (.returnStatement loc value)

variable {ctx}

theorem blankness_eq_nil {use : Use} {value site : Node} :
    ctx.blankness use value site = [] ↔ value.blank = false := by
  unfold blankness
  cases value.blank <;> simp

theorem missing_type_eq_nil {name : String} {site : Node} :
    ctx.missing (.type name) site = [] ↔ name ∈ ctx.dialect.types.keys := by
  rw [missing_eq_nil, ← Table.isSome_get?]
  rfl

theorem missing_method_eq_nil {key : MethodKey} {site : Node} :
    ctx.missing (.method key) site = [] ↔ key ∈ ctx.dialect.methods.keys := by
  rw [missing_eq_nil, ← Table.isSome_get?]
  rfl

/-- Nothing is in the way of a callee exactly when it is a name that denotes a method of a named
type for which the dialect has a function. -/
theorem calleeObstacles_eq_nil {callee site : Node} :
    ctx.calleeObstacles callee site = [] ↔
      ∃ loc id s container, callee = .name loc id ∧ ctx.resolve (.name loc id) = some s ∧
        s.kind = .method ∧ s.containingType = some container ∧ container ≠ "" ∧
        ⟨container, s.name⟩ ∈ ctx.dialect.methods.keys := by
  constructor
  · intro h
    unfold calleeObstacles at h
    split at h
    · rename_i loc id
      split at h
      · cases h
      · rename_i key hkey
        obtain ⟨s, hs, hk⟩ := Option.bind_eq_some_iff.1 hkey
        obtain ⟨hkind, hcontainer, hne, hname⟩ := Symbol.methodKey?_eq_some.1 hk
        refine ⟨loc, id, s, key.container, rfl, hs, hkind, hcontainer, hne, ?_⟩
        rw [hname]
        exact missing_method_eq_nil.1 h
    · cases h
  · rintro ⟨loc, id, s, container, rfl, hs, hkind, hcontainer, hne, hmem⟩
    have hkey : (ctx.resolve (.name loc id)).bind Symbol.methodKey? =
        some ⟨container, s.name⟩ := by
      rw [hs]
      exact Symbol.methodKey?_eq_some.2 ⟨hkind, hcontainer, hne, rfl⟩
    simp only [calleeObstacles, hkey]
    exact missing_method_eq_nil.2 hmem

/-- Nothing is in the way of a constructed type exactly when it denotes a type for which the
dialect has a token. -/
theorem typeObstacles_eq_nil {type site : Node} :
    ctx.typeObstacles type site = [] ↔
      ∃ s, ctx.resolve type = some s ∧ s.kind = .type ∧
        qualifiedName s.scope s.name ∈ ctx.dialect.types.keys := by
  constructor
  · intro h
    unfold typeObstacles at h
    split at h
    · cases h
    · rename_i name hname
      obtain ⟨s, hs, hn⟩ := Option.bind_eq_some_iff.1 hname
      obtain ⟨hkind, rfl⟩ := Symbol.typeName?_eq_some.1 hn
      exact ⟨s, hs, hkind, missing_type_eq_nil.1 h⟩
  · rintro ⟨s, hs, hkind, hmem⟩
    have hname : (ctx.resolve type).bind Symbol.typeName? =
        some (qualifiedName s.scope s.name) := by
      rw [hs]
      exact Symbol.typeName?_eq_some.2 ⟨hkind, rfl⟩
    simp only [typeObstacles, hname]
    exact missing_type_eq_nil.2 hmem

theorem argumentsObstacles_eq_nil {args : List Argument} :
    ctx.argumentsObstacles args = [] ↔ ∀ a ∈ args, ctx.obstacles (.argument a) = [] := by
  rw [argumentsObstacles_eq_flatMap, List.flatMap_eq_nil_iff]
  rfl

/-- An argument is understood with its value. -/
theorem acceptable_argument_iff {a : Argument}
    (h : ctx.Acceptable a.value ↔ ctx.obstacles a.value = []) :
    ctx.Acceptable (.argument a) ↔ ctx.obstacles (.argument a) = [] := by
  obtain ⟨loc, value⟩ := a
  rw [obstacles, argumentObstacles, List.append_eq_nil_iff, blankness_eq_nil, ← h]
  constructor
  · intro ha
    cases ha with
    | argument hvalue hblank => exact ⟨hvalue, hblank⟩
  · rintro ⟨hvalue, hblank⟩
    exact .argument hvalue hblank

theorem acceptable_arguments_iff {args : List Argument}
    (h : ∀ a ∈ args, ctx.Acceptable (Argument.value a) ↔ ctx.obstacles a.value = []) :
    (∀ a ∈ args, ctx.Acceptable (.argument a)) ↔ ctx.argumentsObstacles args = [] := by
  rw [argumentsObstacles_eq_nil]
  exact forall₂_congr fun a ha => acceptable_argument_iff (h a ha)

/-- **Acceptable expressions are those without obstacles.** -/
theorem acceptable_iff_obstacles_eq_nil (n : Node) :
    ctx.Acceptable n ↔ ctx.obstacles n = [] := by
  induction n using Node.expression_induction with
  | name loc id => exact iff_of_true .name rfl
  | literal loc token => exact iff_of_true .literal rfl
  | memberAccess loc target member operator ih =>
    rw [obstacles, ← ih]
    refine ⟨fun h => ?_, .memberAccess⟩
    cases h with
    | memberAccess h => exact h
  | assignment loc left operator right ihl ihr =>
    rw [obstacles, List.append_eq_nil_iff, ← ihl, ← ihr]
    refine ⟨fun h => ?_, fun h => .assignment h.1 h.2⟩
    cases h with
    | assignment hl hr => exact ⟨hl, hr⟩
  | argument loc value ih => exact acceptable_argument_iff (a := ⟨loc, value⟩) ih
  | argumentList loc args ih =>
    rw [obstacles, ← acceptable_arguments_iff ih]
    refine ⟨fun h => ?_, .argumentList⟩
    cases h with
    | argumentList h => exact h
  | initializer loc value ih =>
    rw [obstacles, ← ih]
    refine ⟨fun h => ?_, .initializer⟩
    cases h with
    | initializer h => exact h
  | invocation loc callee listLoc args ih =>
    rw [obstacles, List.append_eq_nil_iff, calleeObstacles_eq_nil, ← acceptable_arguments_iff ih]
    constructor
    · intro h
      cases h with
      | invocation hs hkind hcontainer hne hmem hargs =>
        exact ⟨⟨_, _, _, _, rfl, hs, hkind, hcontainer, hne, hmem⟩, hargs⟩
    · rintro ⟨⟨nameLoc, id, s, container, rfl, hs, hkind, hcontainer, hne, hmem⟩, hargs⟩
      exact .invocation hs hkind hcontainer hne hmem hargs
  | objectCreation loc type listLoc args ih =>
    rw [obstacles, List.append_eq_nil_iff, typeObstacles_eq_nil, ← acceptable_arguments_iff ih]
    constructor
    · intro h
      cases h with
      | objectCreation hs hkind hmem hargs => exact ⟨⟨_, hs, hkind, hmem⟩, hargs⟩
    · rintro ⟨⟨s, hs, hkind, hmem⟩, hargs⟩
      exact .objectCreation hs hkind hmem hargs
  | other n h =>
    rw [obstacles_of_not_isExpressible h]
    refine iff_of_false (fun ha => ?_) (List.cons_ne_nil _ _)
    cases ha <;> cases h

/-- An acceptable expression comes out as nothing exactly when it is blank. -/
theorem Acceptable.text_eq_empty_iff {n : Node} (h : ctx.Acceptable n) :
    ∃ e, (ctx.lowerExpr n).outcome = .ok e ∧ (e.text = "" ↔ n.blank = true) := by
  have hmeets : (ctx.lowerExpr n).Meets _ _ := meets_lowerExpr n
  rw [(acceptable_iff_obstacles_eq_nil n).1 h] at hmeets
  obtain ⟨e, he⟩ := hmeets.exists_ok_iff.2 rfl
  exact ⟨e, he, text_eq_empty_iff_blank he⟩

theorem countObstacle_eq_nil {decl : Declaration} {site : Node} :
    ctx.countObstacle decl site = [] ↔ ∃ v, decl.declarators = [v] := by
  unfold countObstacle
  rw [← List.length_eq_one_iff]
  split <;> simp_all

theorem initializerObstacles_eq_nil {loc : Location} {x : String} {init : Option Initializer} :
    ctx.initializerObstacles ⟨loc, x, init⟩ = [] ↔
      init = none ∨ ∃ initLoc value, init = some ⟨initLoc, value⟩ ∧ ctx.Acceptable value := by
  rcases init with _ | ⟨initLoc, value⟩
  · exact iff_of_true rfl (.inl rfl)
  · change ctx.obstacles value = [] ↔ _
    rw [← acceptable_iff_obstacles_eq_nil]
    constructor
    · exact fun h => .inr ⟨initLoc, value, rfl, h⟩
    · rintro (h | ⟨_, _, h, hvalue⟩)
      · cases h
      · cases h
        exact hvalue

/-- Of the expressions that must show, those without obstacles are acceptable and not blank. -/
theorem obstacles_append_blankness_eq_nil {use : Use} {value site : Node} :
    ctx.obstacles value ++ ctx.blankness use value site = [] ↔
      ctx.Acceptable value ∧ value.blank = false := by
  rw [List.append_eq_nil_iff, blankness_eq_nil, acceptable_iff_obstacles_eq_nil]

/-- **Acceptable statements are those without obstacles.** -/
theorem acceptableStatement_iff_obstacles_eq_nil (n : Node) :
    ctx.AcceptableStatement n ↔ ctx.statementObstacles n = [] := by
  unfold statementObstacles
  split
  · rename_i loc decl
    obtain ⟨declLoc, type, declarators⟩ := decl
    rw [List.append_eq_nil_iff, List.append_eq_nil_iff, countObstacle_eq_nil, missing_type_eq_nil]
    constructor
    · intro h
      cases h with
      | declaration htype => exact ⟨⟨_, rfl⟩, htype, rfl⟩
      | initialization htype hvalue =>
        refine ⟨⟨_, rfl⟩, htype, ?_⟩
        rw [List.flatMap_singleton]
        exact (acceptable_iff_obstacles_eq_nil _).1 hvalue
    · rintro ⟨⟨⟨varLoc, x, init⟩, rfl⟩, htype, hinit⟩
      rw [List.flatMap_singleton, initializerObstacles_eq_nil] at hinit
      rcases hinit with rfl | ⟨initLoc, value, rfl, hvalue⟩
      · exact .declaration htype
      · exact .initialization htype hvalue
  · rw [obstacles_append_blankness_eq_nil]
    exact ⟨fun | .effect h hblank => ⟨h, hblank⟩, fun ⟨h, hblank⟩ => .effect h hblank⟩
  · exact iff_of_true .returnNothing rfl
  · rename_i loc value hne
    rw [obstacles_append_blankness_eq_nil]
    constructor
    · intro h
      cases h with
      | returnNothing => exact (hne rfl).elim
      | returnValue h hblank => exact ⟨h, hblank⟩
    · exact fun ⟨h, hblank⟩ => .returnValue h hblank
  · rename_i h₁ h₂ h₃ h₄
    refine iff_of_false (fun h => ?_) (List.cons_ne_nil _ _)
    cases h with
    | declaration _ => exact h₁ _ _ rfl
    | initialization _ _ => exact h₁ _ _ rfl
    | effect _ _ => exact h₂ _ _ rfl
    | returnNothing => exact h₃ _ rfl
    | returnValue _ _ => exact h₄ _ _ rfl

/-- **A method becomes a source text exactly when the types of its signature have tokens and its
statements are acceptable**, whatever the dialect, the resolver and the rest of the method. What is
blank is told from the tree, and is what comes out as nothing. -/
theorem emit_succeeds_iff (ctx : Context) (d : Definition) :
    ((∃ text, (ctx.emit d).outcome = .ok text) ↔
      (∀ t ∈ d.method.signatureTypes, t.fullName ∈ ctx.dialect.types.keys) ∧
        ∀ n ∈ d.body.statements, ctx.AcceptableStatement n) ∧
    ∀ n, ctx.Acceptable n →
      ∃ e, (ctx.lowerExpr n).outcome = .ok e ∧ (e.text = "" ↔ n.blank = true) := by
  refine ⟨?_, fun n h => h.text_eq_empty_iff⟩
  rw [(meets_emit d).exists_ok_iff, methodObstacles, List.append_eq_nil_iff,
    List.flatMap_eq_nil_iff, List.flatMap_eq_nil_iff]
  have hstatement (n : Node) : (ctx.statementObstacles n).map (Diagnostic.locate ctx.file n) = [] ↔
      ctx.AcceptableStatement n := by
    rw [List.map_eq_nil_iff, acceptableStatement_iff_obstacles_eq_nil]
  exact and_congr (forall₂_congr fun t _ => signatureObstacle_eq_nil)
    (forall₂_congr fun n _ => hstatement n)

end Context

end Shading
