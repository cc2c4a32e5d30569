import Shading.Proofs.Coverage
import Shading.Proofs.Obstacle

/-!
# Lowering into a poorer dialect

One dialect may have words for all that another has words for, and for some more methods. A method
then meets the same obstacles in both, in the same order, but for the calls that the poorer dialect
has no word for. What the words are has no influence on that, since no word makes a text blank.

* `Thinned`: a list of obstacles after some of them have gone.
* `Dialect.Outdoes`: a dialect with the same types as another one and more methods.
* `Context.thinned_methodObstacles`: the obstacles in the richer dialect are those in the poorer one,
  thinned.
* `Context.emit_inDialect_glsl`: **GLSL is HLSL without two intrinsics, for every method.**
-/

namespace Shading

section Thinned

variable {α β : Type}

/-- `Thinned Gone Same as bs` says that `bs` is `as` without some items that are `Gone`, and with
items that are the `Same` in place of the others. -/
inductive Thinned (Gone : α → Prop) (Same : α → α → Prop) : List α → List α → Prop where
  | nil : Thinned Gone Same [] []
  | keep {a b : α} {as bs : List α} :
    Same a b → Thinned Gone Same as bs → Thinned Gone Same (a :: as) (b :: bs)
  | drop {a : α} {as bs : List α} :
    Gone a → Thinned Gone Same as bs → Thinned Gone Same (a :: as) bs

namespace Thinned

variable {Gone : α → Prop} {Same : α → α → Prop} {as as' bs bs' : List α}

theorem single {a b : α} (h : Same a b) : Thinned Gone Same [a] [b] :=
  .keep h .nil

theorem single_nil {a : α} (h : Gone a) : Thinned Gone Same [a] [] :=
  .drop h .nil

theorem append (h : Thinned Gone Same as bs) (h' : Thinned Gone Same as' bs') :
    Thinned Gone Same (as ++ as') (bs ++ bs') := by
  induction h with
  | nil => exact h'
  | keep hab _ ih => exact .keep hab ih
  | drop ha _ ih => exact .drop ha ih

theorem flatMap {f g : β → List α} {xs : List β}
    (h : ∀ x ∈ xs, Thinned Gone Same (f x) (g x)) :
    Thinned Gone Same (xs.flatMap f) (xs.flatMap g) := by
  induction xs with
  | nil => exact .nil
  | cons x xs ih =>
    rw [List.flatMap_cons, List.flatMap_cons]
    have hrest := ih fun x' hx' => h x' (List.mem_cons_of_mem x hx')
    exact (h x List.mem_cons_self).append hrest

theorem map {f : α → α} (h : Thinned Gone Same as bs) (hgone : ∀ a, Gone a → Gone (f a))
    (hsame : ∀ a b, Same a b → Same (f a) (f b)) :
    Thinned Gone Same (as.map f) (bs.map f) := by
  induction h with
  | nil => exact .nil
  | keep hab _ ih => exact .keep (hsame _ _ hab) ih
  | drop ha _ ih => exact .drop (hgone _ ha) ih

theorem eq_nil (h : Thinned Gone Same [] bs) : bs = [] := by
  cases h
  rfl

/-- The first item has gone, or the first of the other list stands in its place. -/
theorem head_cases {a : α} (h : Thinned Gone Same (a :: as) bs) :
    Gone a ∨ ∃ b, bs.head? = some b ∧ Same a b := by
  cases h with
  | keep hab _ => exact .inr ⟨_, rfl, hab⟩
  | drop ha _ => exact .inl ha

end Thinned

end Thinned

namespace Dialect

/-- `d` has words for the same types as `d'`, and for all the methods that `d'` has words for. -/
structure Outdoes (d d' : Dialect) : Prop where
  types : ∀ name, (d'.find? (.type name)).isSome = (d.find? (.type name)).isSome
  methods : ∀ key, (d'.find? (.method key)).isSome = true → (d.find? (.method key)).isSome = true

/-- Either both have a word for a type or neither has. -/
theorem Outdoes.type_cases {d d' : Dialect} (h : d.Outdoes d') (name : String) :
    d'.find? (.type name) = none ∧ d.find? (.type name) = none ∨
      ∃ word word', d'.find? (.type name) = some word ∧ d.find? (.type name) = some word' := by
  have htypes := h.types name
  cases hd : d.find? (.type name) with
  | none =>
    rw [hd, Option.isSome_none, Option.isSome_eq_false_iff, Option.isNone_iff_eq_none] at htypes
    exact .inl ⟨htypes, rfl⟩
  | some word' =>
    rw [hd, Option.isSome_some, Option.isSome_iff_exists] at htypes
    obtain ⟨word, hword⟩ := htypes
    exact .inr ⟨word, word', hword, rfl⟩

/-- `d` has a word for the method and `d'` has none. -/
def HasAlone (d d' : Dialect) (key : MethodKey) : Prop :=
  (d.find? (.method key)).isSome = true ∧ d'.find? (.method key) = none

/-- HLSL has a word for everything in GLSL. -/
theorem hlsl_outdoes_glsl : hlsl.Outdoes glsl where
  types := isSome_find?_glsl_type
  methods _ h := isSome_find?_hlsl_method.2 (.inl h)

theorem eq_of_hasAlone_glsl {key : MethodKey} (h : hlsl.HasAlone glsl key) :
    key = .saturate ∨ key = .mul := by
  obtain ⟨hhlsl, hglsl⟩ := h
  rcases isSome_find?_hlsl_method.1 hhlsl with hsome | hkey
  · rw [hglsl] at hsome
    cases hsome
  · exact hkey

end Dialect

namespace Diagnostic

/-- The same failure, or two failures about an unmapped name. -/
def Alike (e e' : Diagnostic) : Prop :=
  e' = e ∨ e.kind = .unmappedName ∧ e'.kind = .unmappedName

/-- A failure at a method that only `d` has a word for. -/
def LackedAlone (d d' : Dialect) (e : Diagnostic) : Prop :=
  ∃ key, d.HasAlone d' key ∧ e.cause = .unmapped ⟨d'.name, .method key⟩

theorem Alike.locate {e e' : Diagnostic} (h : e.Alike e') (file : Option String) (n : Node) :
    (e.locate file n).Alike (e'.locate file n) := by
  rcases h with rfl | ⟨hkind, hkind'⟩
  · exact .inl rfl
  · refine .inr ⟨?_, ?_⟩
    · rwa [kind, cause_locate]
    · rwa [kind, cause_locate]

theorem LackedAlone.locate {d d' : Dialect} {e : Diagnostic} (h : e.LackedAlone d d')
    (file : Option String) (n : Node) : (e.locate file n).LackedAlone d d' := by
  unfold LackedAlone at h ⊢
  rwa [cause_locate]

end Diagnostic

namespace Context

/-- The context with another dialect. -/
def inDialect (ctx : Context) (d : Dialect) : Context :=
  { ctx with dialect := d }

/-- `os` are obstacles in the dialect `d`, and `os'` what is left of them in the dialect of `ctx`. -/
def ThinnedObstacles (ctx : Context) (d : Dialect) (os os' : List Diagnostic) : Prop :=
  Thinned (Diagnostic.LackedAlone ctx.dialect d) Diagnostic.Alike os os'

variable {ctx : Context} {d : Dialect}

/-- An obstacle without a question to the dialect stays. -/
theorem thinned_single (e : Diagnostic) : ThinnedObstacles ctx d [e] [e] :=
  .single (.inl rfl)

theorem thinned_missing_type (h : ctx.dialect.Outdoes d) (name : String) (site : Node) :
    ThinnedObstacles ctx d ((ctx.inDialect d).missing (.type name) site)
      (ctx.missing (.type name) site) := by
  have hpoorer : (ctx.inDialect d).dialect.find? (.type name) = d.find? (.type name) := rfl
  unfold missing
  rw [hpoorer]
  rcases h.type_cases name with ⟨hd, hctx⟩ | ⟨word, word', hd, hctx⟩
  · rw [hd, hctx]
    exact .single (.inr ⟨rfl, rfl⟩)
  · rw [hd, hctx]
    exact .nil

/-- Only here an obstacle can go: at a method that the richer dialect alone has a word for. -/
theorem thinned_missing_method (h : ctx.dialect.Outdoes d) (key : MethodKey) (site : Node) :
    ThinnedObstacles ctx d ((ctx.inDialect d).missing (.method key) site)
      (ctx.missing (.method key) site) := by
  have hmethods := h.methods key
  have hpoorer : (ctx.inDialect d).dialect.find? (.method key) = d.find? (.method key) := rfl
  unfold missing
  rw [hpoorer]
  cases hd : d.find? (.method key) with
  | none =>
    cases hctx : ctx.dialect.find? (.method key) with
    | none => exact .single (.inr ⟨rfl, rfl⟩)
    | some word =>
      have hsome : (ctx.dialect.find? (.method key)).isSome = true := by
        rw [hctx]
        rfl
      exact .single_nil ⟨key, ⟨hsome, hd⟩, rfl⟩
  | some word =>
    rw [hd] at hmethods
    obtain ⟨word', hword'⟩ := Option.isSome_iff_exists.1 (hmethods rfl)
    rw [hword']
    exact .nil

/-- Whether something is blank is told from the tree, whatever the dialect is. -/
theorem thinned_blankness (use : Use) (value site : Node) :
    ThinnedObstacles ctx d ((ctx.inDialect d).blankness use value site)
      (ctx.blankness use value site) := by
  unfold blankness
  split
  · exact thinned_single _
  · exact .nil

theorem thinned_calleeObstacles (h : ctx.dialect.Outdoes d) (callee site : Node) :
    ThinnedObstacles ctx d ((ctx.inDialect d).calleeObstacles callee site)
      (ctx.calleeObstacles callee site) := by
  cases callee with
  | name loc id =>
    have hresolve : (ctx.inDialect d).resolve (.name loc id) = ctx.resolve (.name loc id) := rfl
    simp only [calleeObstacles, hresolve]
    cases (ctx.resolve (.name loc id)).bind Symbol.methodKey? with
    | none => exact thinned_single _
    | some key => exact thinned_missing_method h key site
  | _ => exact thinned_single _

theorem thinned_typeObstacles (h : ctx.dialect.Outdoes d) (type site : Node) :
    ThinnedObstacles ctx d ((ctx.inDialect d).typeObstacles type site)
      (ctx.typeObstacles type site) := by
  have hresolve : (ctx.inDialect d).resolve type = ctx.resolve type := rfl
  simp only [typeObstacles, hresolve]
  cases (ctx.resolve type).bind Symbol.typeName? with
  | none => exact thinned_single _
  | some name => exact thinned_missing_type h name site

theorem thinned_argumentsObstacles {args : List Argument}
    (ih : ∀ a ∈ args, ThinnedObstacles ctx d ((ctx.inDialect d).obstacles (Argument.value a))
      (ctx.obstacles a.value)) :
    ThinnedObstacles ctx d ((ctx.inDialect d).argumentsObstacles args)
      (ctx.argumentsObstacles args) := by
  rw [argumentsObstacles_eq_flatMap, argumentsObstacles_eq_flatMap]
  refine Thinned.flatMap ?_
  rintro ⟨loc, value⟩ ha
  exact (ih _ ha).append (thinned_blankness _ _ _)

/-- **The obstacles of an expression are thinned in the richer dialect.** -/
theorem thinned_obstacles (h : ctx.dialect.Outdoes d) (n : Node) :
    ThinnedObstacles ctx d ((ctx.inDialect d).obstacles n) (ctx.obstacles n) := by
  induction n using Node.expression_induction with
  | name loc id => exact .nil
  | literal loc token => exact .nil
  | memberAccess loc target member operator ih =>
    rw [obstacles, obstacles]
    exact ih
  | assignment loc left operator right ihl ihr =>
    rw [obstacles, obstacles]
    exact ihl.append ihr
  | argument loc value ih =>
    rw [obstacles, obstacles, argumentObstacles, argumentObstacles]
    exact ih.append (thinned_blankness _ _ _)
  | argumentList loc args ih =>
    rw [obstacles, obstacles]
    exact thinned_argumentsObstacles ih
  | initializer loc value ih =>
    rw [obstacles, obstacles]
    exact ih
  | invocation loc callee listLoc args ih =>
    rw [obstacles, obstacles]
    exact (thinned_calleeObstacles h _ _).append (thinned_argumentsObstacles ih)
  | objectCreation loc type listLoc args ih =>
    rw [obstacles, obstacles]
    exact (thinned_typeObstacles h _ _).append (thinned_argumentsObstacles ih)
  | other n hn =>
    rw [obstacles_of_not_isExpressible hn, obstacles_of_not_isExpressible hn]
    exact thinned_single _

theorem thinned_declaration (h : ctx.dialect.Outdoes d) (decl : Declaration) (site : Node) :
    ThinnedObstacles ctx d
      ((ctx.inDialect d).countObstacle decl site ++
        ((ctx.inDialect d).missing (.type decl.type.fullName) site ++
          decl.declarators.flatMap (ctx.inDialect d).initializerObstacles))
      (ctx.countObstacle decl site ++
        (ctx.missing (.type decl.type.fullName) site ++
          decl.declarators.flatMap ctx.initializerObstacles)) := by
  have hcount : ThinnedObstacles ctx d ((ctx.inDialect d).countObstacle decl site)
      (ctx.countObstacle decl site) := by
    unfold countObstacle
    split
    · exact .nil
    · exact thinned_single _
  have hvalues : ThinnedObstacles ctx d
      (decl.declarators.flatMap (ctx.inDialect d).initializerObstacles)
      (decl.declarators.flatMap ctx.initializerObstacles) := by
    refine Thinned.flatMap fun v _ => ?_
    unfold initializerObstacles
    cases v.init with
    | none => exact .nil
    | some init => exact thinned_obstacles h init.value
  exact hcount.append ((thinned_missing_type h _ _).append hvalues)

theorem thinned_statementObstacles (h : ctx.dialect.Outdoes d) (n : Node) :
    ThinnedObstacles ctx d ((ctx.inDialect d).statementObstacles n) (ctx.statementObstacles n) := by
  have hvalue : ∀ use value site, ThinnedObstacles ctx d
      ((ctx.inDialect d).obstacles value ++ (ctx.inDialect d).blankness use value site)
      (ctx.obstacles value ++ ctx.blankness use value site) := fun use value site =>
    (thinned_obstacles h value).append (thinned_blankness use value site)
  unfold statementObstacles
  split
  · exact thinned_declaration h _ _
  · exact hvalue _ _ _
  · exact .nil
  · exact hvalue _ _ _
  · exact thinned_single _

theorem thinned_signatureObstacle (h : ctx.dialect.Outdoes d) (m : Method) (t : TypeRef) :
    ThinnedObstacles ctx d ((ctx.inDialect d).signatureObstacle m t) (ctx.signatureObstacle m t) := by
  have hpoorer : (ctx.inDialect d).dialect.find? (.type t.fullName) = d.find? (.type t.fullName) :=
    rfl
  unfold signatureObstacle
  rw [hpoorer]
  rcases h.type_cases t.fullName with ⟨hd, hctx⟩ | ⟨word, word', hd, hctx⟩
  · rw [hd, hctx]
    exact .single (.inr ⟨rfl, rfl⟩)
  · rw [hd, hctx]
    exact .nil

/-- **The obstacles of a method are thinned in the richer dialect.** -/
theorem thinned_methodObstacles (h : ctx.dialect.Outdoes d) (m : Definition) :
    ThinnedObstacles ctx d ((ctx.inDialect d).methodObstacles m) (ctx.methodObstacles m) := by
  unfold methodObstacles
  have hsignature := Thinned.flatMap fun t (_ : t ∈ m.method.signatureTypes) =>
    thinned_signatureObstacle h m.method t
  refine hsignature.append (Thinned.flatMap fun n _ => ?_)
  have hstatement := thinned_statementObstacles h n
  exact hstatement.map (fun e he => he.locate ctx.file n) fun e e' he => he.locate ctx.file n

/-- What becomes a function in the poorer dialect becomes one in the richer. The converse fails only
at a call that the richer one alone has a word for; and unless the poorer one lacks a name, it fails
as the richer one does. -/
theorem emit_inDialect_of_outdoes (h : ctx.dialect.Outdoes d) (m : Definition) :
    (∀ text, ((ctx.inDialect d).emit m).outcome = .ok text →
      ∃ text', (ctx.emit m).outcome = .ok text') ∧
    (∀ text, (ctx.emit m).outcome = .ok text →
      (∃ text', ((ctx.inDialect d).emit m).outcome = .ok text') ∨
      ∃ e, ((ctx.inDialect d).emit m).outcome = .error e ∧
        Diagnostic.LackedAlone ctx.dialect d e) ∧
    ∀ e, ((ctx.inDialect d).emit m).outcome = .error e → e.kind ≠ .unmappedName →
      (ctx.emit m).outcome = .error e := by
  have hthinned := thinned_methodObstacles h m
  have hricher : (ctx.emit m).Meets (ctx.methodObstacles m) _ := meets_emit m
  have hpoorer : ((ctx.inDialect d).emit m).Meets ((ctx.inDialect d).methodObstacles m) _ :=
    meets_emit m
  refine ⟨fun text htext => ?_, fun text htext => ?_, fun e he hkind => ?_⟩
  · -- without an obstacle nothing is left to thin
    rw [hpoorer.exists_ok_iff.1 ⟨text, htext⟩] at hthinned
    exact hricher.exists_ok_iff.2 hthinned.eq_nil
  · rw [hricher.exists_ok_iff.1 ⟨text, htext⟩] at hthinned
    cases hos : (ctx.inDialect d).methodObstacles m with
    | nil => exact .inl (hpoorer.exists_ok_iff.2 hos)
    | cons e os =>
      have hhead : ((ctx.inDialect d).methodObstacles m).head? = some e := by
        rw [hos]
        rfl
      rw [hos] at hthinned
      rcases hthinned.head_cases with hgone | ⟨e', he', -⟩
      · exact .inr ⟨e, hpoorer.outcome_eq_error_iff.2 hhead, hgone⟩
      · cases he'
  · obtain ⟨os, hos⟩ := List.head?_eq_some_iff.1 (hpoorer.outcome_eq_error_iff.1 he)
    rw [hos] at hthinned
    rcases hthinned.head_cases with ⟨key, -, hcause⟩ | ⟨e', he', rfl | ⟨hunmapped, -⟩⟩
    · -- what has gone is about an unmapped name
      rw [Diagnostic.kind, hcause] at hkind
      exact absurd rfl hkind
    · exact hricher.outcome_eq_error_iff.2 he'
    · exact absurd hunmapped hkind

/-- A failure at a method that HLSL alone has a word for says which of the two intrinsics it is. -/
theorem text_of_lackedAlone_glsl {e : Diagnostic} (h : e.LackedAlone .hlsl .glsl) :
    e.kind = .unmappedName ∧
      (e.text = "Function 'ShaderGen.ShaderBuiltins.Saturate' has no GLSL equivalent" ∨
        e.text = "Function 'ShaderGen.ShaderBuiltins.Mul' has no GLSL equivalent") := by
  obtain ⟨key, halone, hcause⟩ := h
  have htext : e.text = (Unmapped.mk "GLSL" (.method key)).text := by
    rw [Diagnostic.text, hcause]
    rfl
  refine ⟨?_, ?_⟩
  · rw [Diagnostic.kind, hcause]
    rfl
  · rcases Dialect.eq_of_hasAlone_glsl halone with rfl | rfl
    · exact .inl htext
    · exact .inr htext

/-- **GLSL is HLSL without two intrinsics.** What becomes a function of GLSL becomes one of HLSL.
What becomes one of HLSL becomes one of GLSL too, unless it comes to a call of `Saturate` or `Mul`,
which is then what fails. And what fails in GLSL for another reason than a name that it lacks fails
in HLSL, and the same way. -/
theorem emit_inDialect_glsl (resolve : Resolver) (file : Option String) (m : Definition) :
    let hlsl : Context := ⟨.hlsl, resolve, file⟩
    let glsl : Context := ⟨.glsl, resolve, file⟩
    (∀ text, (glsl.emit m).outcome = .ok text → ∃ text', (hlsl.emit m).outcome = .ok text') ∧
    (∀ text, (hlsl.emit m).outcome = .ok text →
      (∃ text', (glsl.emit m).outcome = .ok text') ∨
      ∃ e, (glsl.emit m).outcome = .error e ∧ e.kind = .unmappedName ∧
        (e.text = "Function 'ShaderGen.ShaderBuiltins.Saturate' has no GLSL equivalent" ∨
          e.text = "Function 'ShaderGen.ShaderBuiltins.Mul' has no GLSL equivalent")) ∧
    ∀ e, (glsl.emit m).outcome = .error e → e.kind ≠ .unmappedName →
      (hlsl.emit m).outcome = .error e := by
  intro hlsl glsl
  have houtdoes : hlsl.dialect.Outdoes .glsl := Dialect.hlsl_outdoes_glsl
  obtain ⟨hsucceeds, hlacks, hfails⟩ := emit_inDialect_of_outdoes houtdoes m
  refine ⟨hsucceeds, fun text htext => ?_, hfails⟩
  rcases hlacks text htext with hok | ⟨e, he, halone⟩
  · exact .inl hok
  · exact .inr ⟨e, he, text_of_lackedAlone_glsl halone⟩

/-- A method that takes a fraction becomes a function in both dialects, and one that restricts a value
only in HLSL. A negation fails in both. -/
theorem saturate_left_to_hlsl :
    let float : TypeRef := ⟨"float", none⟩
    let t : SymbolTable := .ofList [("Saturate", .method "ShaderGen.ShaderBuiltins" "Saturate"),
      ("Frac", .method "ShaderGen.ShaderBuiltins" "Frac")]
    let hlsl : Context := ⟨.hlsl, t.byIdentifier, none⟩
    let glsl : Context := ⟨.glsl, t.byIdentifier, none⟩
    let returning (value : Node) : Definition :=
      ⟨⟨"Foo", float, [⟨"a", float⟩]⟩, .bare [.returnStatement .unknown value]⟩
    let call (id : String) : Node :=
      .invocation .unknown (.name .unknown id) .unknown [⟨.unknown, .name .unknown "a"⟩]
    let negation : Node := .unary ⟨some 3, none⟩ "-" (.name .unknown "a")
    ((glsl.emit (returning (call "Frac"))).outcome.toOption =
        some "float Foo(float a)\n\x7b\nreturn fract(a);\n\x7d\n" ∧
      ∃ text, (hlsl.emit (returning (call "Frac"))).outcome = .ok text) ∧
    ((hlsl.emit (returning (call "Saturate"))).outcome.toOption =
        some "float Foo(float a)\n\x7b\nreturn saturate(a);\n\x7d\n" ∧
      (glsl.emit (returning (call "Saturate"))).outcome.toOption = none ∧
      ∃ e, (glsl.emit (returning (call "Saturate"))).outcome = .error e ∧ e.kind = .unmappedName) ∧
    ∃ e, (glsl.emit (returning negation)).outcome = .error e ∧ e.kind ≠ .unmappedName ∧
      (hlsl.emit (returning negation)).outcome = .error e := by
  intro float t hlsl glsl returning call negation
  have hfrac : (glsl.emit (returning (call "Frac"))).outcome.toOption =
      some "float Foo(float a)\n\x7b\nreturn fract(a);\n\x7d\n" := by
    decide +kernel
  have hsaturate : (hlsl.emit (returning (call "Saturate"))).outcome.toOption =
      some "float Foo(float a)\n\x7b\nreturn saturate(a);\n\x7d\n" := by
    decide +kernel
  have hnone : (glsl.emit (returning (call "Saturate"))).outcome.toOption = none := by
    decide +kernel
  have hnegation : (glsl.emit (returning negation)).outcome =
      .error (.report none (.unsupported .expression .unary) negation) := rfl
  have hkind : (Diagnostic.report none (.unsupported .expression .unary) negation).kind ≠
      .unmappedName := nofun
  obtain ⟨hsucceeds, -, -⟩ := emit_inDialect_glsl t.byIdentifier none (returning (call "Frac"))
  obtain ⟨-, hlacks, -⟩ := emit_inDialect_glsl t.byIdentifier none (returning (call "Saturate"))
  obtain ⟨-, -, hfails⟩ := emit_inDialect_glsl t.byIdentifier none (returning negation)
  refine ⟨⟨hfrac, hsucceeds _ (Traced.outcome_eq_ok_of_toOption hfrac)⟩, ⟨hsaturate, hnone, ?_⟩, ?_⟩
  · rcases hlacks _ (Traced.outcome_eq_ok_of_toOption hsaturate) with ⟨text, htext⟩ | ⟨e, he, hkind', -⟩
    · rw [htext] at hnone
      cases hnone
    · exact ⟨e, he, hkind'⟩
  · exact ⟨_, hnegation, hkind, hfails _ hnegation hkind⟩

end Context

end Shading
