import Shading.Dialect.Recipe
import Shading.Proofs.Agreement
import Shading.Proofs.Hole

/-!
# Spellings of built-in types

A built-in type can be written in several ways: a scalar as its keyword or as its runtime type, an
aggregate with or without its scope, the scope as part of the name or apart from it. The built-in
dialects have one token for all of them, and so have their extensions that leave built-in types
alone. Whichever spelling is used where, what is generated stays the same.

* `SameType`: two names mean the same type.
* `Dialect.SpellsAlike`: a dialect has one token for all spellings of a built-in type.
* `Node.Respelled`, `Definition.Respelled`, `Resolver.Respelled`: some spellings are replaced by
  others, each on its own.
* `Context.emit_respelled`: **spellings have no influence on what is generated.**
-/

namespace Shading

/-- The aggregates for which the built-in dialects have types. -/
def aggregateNames : List String :=
  ["Vector2", "Vector3", "Vector4", "Matrix4x4"]

/-- The built-in types, each as the list of its spellings. -/
def builtinTypes : List (List String) :=
  scalarKeywords.map (fun row => scalarSpellings row.1) ++
    aggregateNames.map (aggregateSpellings numericsScope)

/-- Two names mean the same type: there is one name only, or both spell one built-in type. -/
def SameType (key key' : String) : Prop :=
  key = key' ∨ ∃ spellings ∈ builtinTypes, key ∈ spellings ∧ key' ∈ spellings

theorem SameType.refl (key : String) : SameType key key :=
  .inl rfl

/-- The two references are to the same type. -/
def TypeRef.Respelled (t t' : TypeRef) : Prop :=
  SameType t.fullName t'.fullName

/-- The symbols are the same, but for the spelling of the type that they are. -/
def Symbol.Respelled (s s' : Symbol) : Prop :=
  s = s' ∨ ∃ key key', s.typeName? = some key ∧ s'.typeName? = some key' ∧ SameType key key'

/-- The resolvers give the same symbols, but for the spellings of types. -/
def Resolver.Respelled (r r' : Resolver) : Prop :=
  ∀ n, Option.Rel Symbol.Respelled (r n) (r' n)

/-- Declared types in a node are written with other spellings. Where one stands below a constructed
type, of which `r` is asked the symbol, that symbol is the same but for its spelling. -/
inductive Node.Respelled (r : Resolver) : Node → Node → Prop where
  | refl (n : Node) : Respelled r n n
  | trans {n n' n'' : Node} (h : Respelled r n n') (h' : Respelled r n' n'') : Respelled r n n''
  | declaration {t t' : TypeRef} (h : t.Respelled t') (loc : Location) (vars : List Declarator) :
    Respelled r (.declaration ⟨loc, t, vars⟩) (.declaration ⟨loc, t', vars⟩)
  | localDeclaration {t t' : TypeRef} (h : t.Respelled t') (loc declLoc : Location)
      (vars : List Declarator) :
    Respelled r (.localDeclaration loc ⟨declLoc, t, vars⟩)
      (.localDeclaration loc ⟨declLoc, t', vars⟩)
  | forStatement {t t' : TypeRef} (h : t.Respelled t') (loc declLoc : Location)
      (vars : List Declarator) (condition : Node) (increments : List Node) (body : Node) :
    Respelled r (.forStatement loc (some ⟨declLoc, t, vars⟩) condition increments body)
      (.forStatement loc (some ⟨declLoc, t', vars⟩) condition increments body)
  | inside {n n' : Node} (h : Respelled r n n') (f : Frame) : Respelled r (f.fill n) (f.fill n')
  | callee {n n' : Node} (h : Respelled r n n') (loc listLoc : Location) (args : List Argument) :
    Respelled r (.invocation loc n listLoc args) (.invocation loc n' listLoc args)
  | constructedType {n n' : Node} (h : Respelled r n n')
      (hr : Option.Rel Symbol.Respelled (r n) (r n')) (loc listLoc : Location)
      (args : List Argument) :
    Respelled r (.objectCreation loc n listLoc args) (.objectCreation loc n' listLoc args)

/-- The types of parameters are written with other spellings. -/
structure Parameter.Respelled (p p' : Parameter) : Prop where
  name : p.name = p'.name
  type : p.type.Respelled p'.type

/-- The types of a signature are written with other spellings. -/
structure Method.Respelled (m m' : Method) : Prop where
  name : m.name = m'.name
  returnType : m.returnType.Respelled m'.returnType
  parameters : List.Forall₂ Parameter.Respelled m.parameters m'.parameters

/-- The types of a signature and those declared in a body are written with other spellings. -/
structure Definition.Respelled (r : Resolver) (d d' : Definition) : Prop where
  method : d.method.Respelled d'.method
  body : List.Forall₂ (Node.Respelled r) d.body.statements d'.body.statements

namespace Symbol.Respelled

variable {s s' : Symbol}

/-- Only the name of a type is replaced, so methods stay the methods they are. -/
theorem methodKey?_eq (h : s.Respelled s') : s.methodKey? = s'.methodKey? := by
  obtain rfl | ⟨key, key', hkey, hkey', -⟩ := h
  · rfl
  · have hkind : s.kind = .type := (typeName?_eq_some.1 hkey).1
    have hkind' : s'.kind = .type := (typeName?_eq_some.1 hkey').1
    rw [methodKey?, methodKey?, hkind, hkind']

theorem typeName?_rel (h : s.Respelled s') : Option.Rel SameType s.typeName? s'.typeName? := by
  obtain rfl | ⟨key, key', hkey, hkey', hsame⟩ := h
  · cases s.typeName? with
    | none => exact .none
    | some key => exact .some (.refl key)
  · rw [hkey, hkey']
    exact .some hsame

end Symbol.Respelled

/-- Answers that are the same but for spellings denote the same method. -/
theorem bind_methodKey?_eq {o o' : Option Symbol} (h : Option.Rel Symbol.Respelled o o') :
    o.bind Symbol.methodKey? = o'.bind Symbol.methodKey? := by
  cases h with
  | none => rfl
  | some hs => exact hs.methodKey?_eq

/-- Answers that are the same but for spellings denote the same type. -/
theorem bind_typeName?_rel {o o' : Option Symbol} (h : Option.Rel Symbol.Respelled o o') :
    Option.Rel SameType (o.bind Symbol.typeName?) (o'.bind Symbol.typeName?) := by
  cases h with
  | none => exact .none
  | some hs => exact hs.typeName?_rel

namespace Node.Respelled

variable {r : Resolver} {n n' : Node}

/-- From outside it cannot be seen how types are spelled. -/
theorem outline_eq (h : n.Respelled r n') : n.outline = n'.outline := by
  induction h with
  | trans _ _ ih ih' => exact ih.trans ih'
  | inside _ f _ => exact f.outline_fill _ _
  | _ => rfl

/-- Names have no types in them. -/
theorem eq_or_ident?_eq_none (h : n.Respelled r n') :
    n = n' ∨ n.ident? = none ∧ n'.ident? = none := by
  induction h with
  | refl n => exact .inl rfl
  | trans _ _ ih ih' =>
    obtain rfl | ⟨hn, hn'⟩ := ih
    · exact ih'
    · obtain rfl | ⟨-, hn''⟩ := ih'
      · exact .inr ⟨hn, hn'⟩
      · exact .inr ⟨hn, hn''⟩
  | inside _ f _ => cases f <;> exact .inr ⟨rfl, rfl⟩
  | _ => exact .inr ⟨rfl, rfl⟩

end Node.Respelled

namespace Extension

/-- The extension has no type under a spelling of a built-in one. -/
def SparesBuiltins (e : Extension) : Prop :=
  ∀ spellings ∈ builtinTypes, ∀ key ∈ spellings, e.find? (.type key) = none

end Extension

namespace Dialect

variable {d : Dialect}

/-- The dialect has a token for each built-in type, the same under all spellings. -/
def SpellsAlike (d : Dialect) : Prop :=
  ∀ spellings ∈ builtinTypes, ∀ key ∈ spellings, ∀ key' ∈ spellings,
    (d.find? (.type key)).isSome ∧ d.find? (.type key') = d.find? (.type key)

theorem hlsl_spellsAlike : hlsl.SpellsAlike := by
  unfold SpellsAlike
  decide +kernel

theorem glsl_spellsAlike : glsl.SpellsAlike := by
  unfold SpellsAlike
  decide +kernel

/-- Extensions that leave built-in types alone leave their spellings alike. -/
theorem SpellsAlike.extendAll (h : d.SpellsAlike) {es : List Extension}
    (hes : ∀ e ∈ es, e.SparesBuiltins) : (d.extendAll es).SpellsAlike := by
  intro spellings hs key hkey key' hkey'
  have hbase : ∀ k ∈ spellings, (d.extendAll es).find? (.type k) = d.find? (.type k) := by
    intro k hk
    have hnone : es.reverse.findSome? (·.find? (.type k)) = none :=
      List.findSome?_eq_none_iff.2 fun e he => hes e (List.mem_reverse.1 he) spellings hs k hk
    rw [find?_extendAll, hnone, Option.none_or]
  rw [hbase key hkey, hbase key' hkey']
  exact h spellings hs key hkey key' hkey'

end Dialect

namespace Context

open Target

variable {ctx : Context} {n n' : Node}

/-- Under two names of one type a dialect finds the same token, or lacks the same name. -/
theorem find_of_sameType (hd : ctx.dialect.SpellsAlike) {key key' : String}
    (h : SameType key key') (site : Node) :
    ctx.find (.type key) site = ctx.find (.type key') site := by
  obtain rfl | ⟨spellings, hs, hkey, hkey'⟩ := h
  · rfl
  · obtain ⟨hsome, hsame⟩ := hd spellings hs key hkey key' hkey'
    obtain ⟨token, htoken⟩ := Option.isSome_iff_exists.1 hsome
    rw [find_of_some htoken, find_of_some (hsame.trans htoken)]

/-- A call has the same function however types are spelled by the resolver. -/
theorem calledFunction_of_respelled {r : Resolver} (hr : ctx.resolve.Respelled r)
    (callee site : Node) :
    ctx.calledFunction callee site = { ctx with resolve := r }.calledFunction callee site := by
  unfold calledFunction calledMethod
  simp only [bind_methodKey?_eq (hr callee)]
  rfl

/-- A construction has the same constructor however the resolver spells its type. -/
theorem constructor_of_respelled (hd : ctx.dialect.SpellsAlike) {r : Resolver}
    (hr : ctx.resolve.Respelled r) (type site : Node) :
    ctx.constructor type site = { ctx with resolve := r }.constructor type site := by
  have hname := bind_typeName?_rel (hr type)
  unfold constructor constructedType
  dsimp only
  generalize (ctx.resolve type).bind Symbol.typeName? = o at hname ⊢
  generalize (r type).bind Symbol.typeName? = o' at hname ⊢
  cases hname with
  | none => rfl
  | some hkey => exact find_of_sameType hd hkey site

/-- Resolvers that differ in spellings lead to the same. -/
theorem emit_of_respelled_resolver (hd : ctx.dialect.SpellsAlike) {r : Resolver}
    (hr : ctx.resolve.Respelled r) (d : Definition) :
    ctx.emit d = { ctx with resolve := r }.emit d := by
  have hanswers (n : Node) : AnswersAlike (fun _ => False) ctx { ctx with resolve := r } n := by
    cases n with
    | invocation loc callee listLoc args => exact .inl (calledFunction_of_respelled hr callee _)
    | objectCreation loc type listLoc args => exact .inl (constructor_of_respelled hd hr type _)
    | localDeclaration loc decl => exact .refl _ _
    | _ => trivial
  have hall : AnswersAlikeIn (fun _ => False) ctx { ctx with resolve := r } d :=
    ⟨rfl, fun _ _ => .refl _ _, fun _ _ n _ => hanswers n, fun _ h => h⟩
  exact (emit_eqUnless hall).eq_of_never fun _ h => h

/-- Respelled callees lead to the same function: a name is not respelled, and of another callee only
the kind is told. -/
theorem calledFunction_inStep_of_respelled (h : n.Respelled ctx.resolve n') {site site' : Node}
    (hsite : site.outline = site'.outline) :
    (ctx.calledFunction n site).InStep Eq (ctx.calledFunction n' site') := by
  obtain rfl | ⟨hn, hn'⟩ := h.eq_or_ident?_eq_none
  · exact calledFunction_inStep n hsite
  · have hkind : n.kind = n'.kind := congrArg Prod.fst h.outline_eq
    unfold calledFunction calledMethod
    rw [hn, hn', hkind]
    exact reject_inStep hsite

/-- Respelled types lead to the same constructor if the resolver takes them for the same. -/
theorem constructor_inStep_of_respelled (hd : ctx.dialect.SpellsAlike)
    (h : n.Respelled ctx.resolve n')
    (hr : Option.Rel Symbol.Respelled (ctx.resolve n) (ctx.resolve n')) {site site' : Node}
    (hsite : site.outline = site'.outline) :
    (ctx.constructor n site).InStep Eq (ctx.constructor n' site') := by
  have hname := bind_typeName?_rel hr
  have hkind : n.kind = n'.kind := congrArg Prod.fst h.outline_eq
  have hident : n.ident? = n'.ident? := by
    obtain rfl | ⟨hn, hn'⟩ := h.eq_or_ident?_eq_none
    · rfl
    · rw [hn, hn']
  unfold constructor constructedType
  generalize (ctx.resolve n).bind Symbol.typeName? = o at hname ⊢
  generalize (ctx.resolve n').bind Symbol.typeName? = o' at hname ⊢
  cases hname with
  | none =>
    rw [hident, hkind]
    exact reject_inStep hsite
  | @some key key' hkey =>
    have hstep : (ctx.find (.type key) site).InStep Eq (ctx.find (.type key) site') :=
      find_inStep _ hsite
    rw [find_of_sameType hd hkey site'] at hstep
    exact hstep

/-- A declaration is lowered in step under another spelling of its type. -/
theorem lowerDeclaration_inStep_of_respelled (hd : ctx.dialect.SpellsAlike) {t t' : TypeRef}
    (h : t.Respelled t') (loc : Location) (vars : List Declarator) {site site' : Node}
    (hsite : site.outline = site'.outline) :
    (ctx.lowerDeclaration ⟨loc, t, vars⟩ site).InStep Statement.SameText
      (ctx.lowerDeclaration ⟨loc, t', vars⟩ site') := by
  rcases vars with _ | ⟨⟨varLoc, x, init⟩, _ | ⟨v, vars⟩⟩
  · exact reject_inStep hsite
  · have hstep : (ctx.find (.type t.fullName) site).InStep Eq (ctx.find (.type t.fullName) site') :=
      find_inStep _ hsite
    rw [find_of_sameType hd h site'] at hstep
    refine hstep.bind ?_
    rintro token _ - rfl
    exact .refl Statement.SameText.refl _
  · exact reject_inStep hsite

/-- **Respelled nodes are lowered in step**, as expressions and as statements. -/
theorem inStep_of_respelled (hd : ctx.dialect.SpellsAlike) (h : n.Respelled ctx.resolve n') :
    ctx.Interchangeable n n' ∧
      (ctx.lowerUnlocated n).InStep Statement.SameText (ctx.lowerUnlocated n') := by
  -- along the derivation: declarations, callees and constructed types are looked at here, and
  -- whatever is around them is a frame
  have hkind {m m' : Node} (hm : m.Respelled ctx.resolve m') : m.kind = m'.kind :=
    congrArg Prod.fst hm.outline_eq
  induction h with
  | refl n => exact ⟨.refl ctx n, .refl Statement.SameText.refl _⟩
  | trans h h' ih ih' =>
    have hexpr := Traced.InStep.trans Expr.SameText.trans ih.1.lowered ih'.1.lowered
    have hstatement := Traced.InStep.trans Statement.SameText.trans ih.2 ih'.2
    exact ⟨⟨hexpr, .inl (hkind (h.trans h'))⟩, hstatement⟩
  | declaration ht loc vars =>
    have hsite := (Node.Respelled.declaration (r := ctx.resolve) ht loc vars).outline_eq
    exact ⟨⟨lowerExpr_inStep_of_outline hsite rfl, .inl rfl⟩, reject_inStep hsite⟩
  | localDeclaration ht loc declLoc vars =>
    have hsite :=
      (Node.Respelled.localDeclaration (r := ctx.resolve) ht loc declLoc vars).outline_eq
    exact ⟨⟨lowerExpr_inStep_of_outline hsite rfl, .inl rfl⟩,
      lowerDeclaration_inStep_of_respelled hd ht declLoc vars hsite⟩
  | forStatement ht loc declLoc vars condition increments body =>
    have hsite := (Node.Respelled.forStatement (r := ctx.resolve) ht loc declLoc vars condition
      increments body).outline_eq
    exact ⟨⟨lowerExpr_inStep_of_outline hsite rfl, .inl rfl⟩, reject_inStep hsite⟩
  | inside h f ih => exact ⟨ih.1.fill f, ih.1.lowerUnlocated_fill f⟩
  | callee h loc listLoc args ih =>
    have hsite := (h.callee loc listLoc args).outline_eq
    have hcalled := calledFunction_inStep_of_respelled h hsite
    refine ⟨⟨hcalled.bind ?_, .inl rfl⟩, reject_inStep hsite⟩
    rintro word _ - rfl
    exact .refl Expr.SameText.refl _
  | constructedType h hr loc listLoc args ih =>
    have hsite := (h.constructedType hr loc listLoc args).outline_eq
    have hconstructor := constructor_inStep_of_respelled hd h hr hsite
    refine ⟨⟨hconstructor.bind ?_, .inl rfl⟩, reject_inStep hsite⟩
    rintro word _ - rfl
    exact .refl Expr.SameText.refl _

theorem lowerParameters_of_respelled (hd : ctx.dialect.SpellsAlike) {ps ps' : List Parameter}
    (h : List.Forall₂ Parameter.Respelled ps ps') :
    ctx.lowerParameters ps = ctx.lowerParameters ps' := by
  unfold lowerParameters
  induction h with
  | nil => rfl
  | @cons p p' ps ps' hp _ ih =>
    have hparameter : ctx.lowerParameter p = ctx.lowerParameter p' := by
      rw [lowerParameter, lowerParameter, find_of_sameType hd hp.type, hp.name]
    rw [List.mapM_cons, List.mapM_cons, hparameter, ih]

/-- A signature is lowered to the same however its types are spelled. -/
theorem lowerSignature_of_respelled (hd : ctx.dialect.SpellsAlike) {m m' : Method}
    (h : m.Respelled m') : ctx.lowerSignature m = ctx.lowerSignature m' := by
  unfold lowerSignature
  rw [find_of_sameType hd h.returnType, lowerParameters_of_respelled hd h.parameters, h.name]

/-- **Spellings have no influence on what is generated.** In a built-in dialect or an extension of
one that leaves the built-in types alone, every built-in type of a method, and every one that a
symbol is, may be written as any of its spellings: the method comes to the same text, or to failures
that are reported alike, and the log is the same. -/
theorem emit_respelled {base : Dialect} (hbase : base = .hlsl ∨ base = .glsl)
    {es : List Extension} (hes : ∀ e ∈ es, e.SparesBuiltins) {r r' : Resolver}
    (hr : r.Respelled r') {d d' : Definition} (hd : d.Respelled r' d') (file : Option String) :
    let x := Context.emit ⟨base.extendAll es, r, file⟩ d
    let x' := Context.emit ⟨base.extendAll es, r', file⟩ d'
    ((∃ text, x.outcome = .ok text ∧ x'.outcome = .ok text) ∨
      ∃ e e', x.outcome = .error e ∧ x'.outcome = .error e' ∧ e.SameReport e') ∧
    x'.log = x.log := by
  intro x x'
  have hspells : (base.extendAll es).SpellsAlike := by
    obtain rfl | rfl := hbase
    · exact Dialect.hlsl_spellsAlike.extendAll hes
    · exact Dialect.glsl_spellsAlike.extendAll hes
  let ctx : Context := ⟨base.extendAll es, r', file⟩
  -- first the resolver is replaced, then the signature, then the body
  have hresolver : x = ctx.emit d := emit_of_respelled_resolver hspells hr d
  have hsignature : ctx.emit ⟨d.method, d'.body⟩ = x' := by
    have hsame : ctx.lowerSignature d.method = ctx.lowerSignature d'.method :=
      lowerSignature_of_respelled hspells hd.method
    simp only [x', emit, emitIndented, lowerFunction, hd.method.name, hsame, ctx]
  have hbody : (ctx.emit d).InStep Eq (ctx.emit ⟨d.method, d'.body⟩) := by
    refine emitIndented_inStep d.method "" (hd.body.imp fun s s' hs => ?_)
    exact (inStep_of_respelled hspells hs).2.mapError fun e e' he =>
      Diagnostic.outline_locate he hs.outline_eq ctx.file
  rw [hresolver, ← hsignature]
  exact hbody.report

/-- A function with a type of its own among the built-in ones, with other spellings of these in the
signature, in a declaration and in what the resolver gives. -/
theorem lighting_respelled :
    let light : Extension := ⟨some (.ofList [("Light", "Light")]), none⟩
    let r : Resolver := fun _ => some (.type "Vector3" none)
    let r' : Resolver := fun _ => some (.type "Numerics.Vector3" (some "System"))
    let d (vector float float' : TypeRef) : Definition :=
      ⟨⟨"Lit", vector, [⟨"k", float⟩, ⟨"l", ⟨"Light", none⟩⟩]⟩,
        .bare [.localDeclaration .unknown ⟨.unknown, float',
            [⟨.unknown, "s", some ⟨.unknown, .name .unknown "k"⟩⟩]⟩,
          .returnStatement .unknown (.objectCreation .unknown (.name .unknown "Vec") .unknown
            [⟨.unknown, .name .unknown "s"⟩])]⟩
    let keyword : TypeRef := ⟨"float", none⟩
    let runtime : TypeRef := ⟨"Single", some "System"⟩
    let x : Definition := d ⟨"Vector3", some "System.Numerics"⟩ keyword runtime
    let x' : Definition := d ⟨"Vector3", some ""⟩ runtime keyword
    let base : Dialect := .glsl
    (base = .hlsl ∨ base = .glsl) ∧ (∀ e ∈ [light], e.SparesBuiltins) ∧ r.Respelled r' ∧
      x.Respelled r' x' ∧
      (Context.emit ⟨base.extendAll [light], r, none⟩ x).outcome =
        .ok "vec3 Lit(float k, Light l)\n\x7b\nfloat s = k;\nreturn vec3(s);\n\x7d\n" ∧
      (Context.emit ⟨base.extendAll [light], r', none⟩ x').outcome =
        .ok "vec3 Lit(float k, Light l)\n\x7b\nfloat s = k;\nreturn vec3(s);\n\x7d\n" := by
  intro light r r' d keyword runtime x x' base
  have hbase : base = .hlsl ∨ base = .glsl := .inr rfl
  have hes : ∀ e ∈ [light], e.SparesBuiltins := by
    intro e he
    rw [List.mem_singleton] at he
    subst he
    unfold Extension.SparesBuiltins
    decide +kernel
  have hvector : SameType "System.Numerics.Vector3" "Vector3" :=
    .inr ⟨["Vector3", "System.Numerics.Vector3"], by decide +kernel, by decide, by decide⟩
  have hvector' : SameType "Vector3" "System.Numerics.Vector3" :=
    .inr ⟨["Vector3", "System.Numerics.Vector3"], by decide +kernel, by decide, by decide⟩
  have hfloat : SameType "float" "System.Single" :=
    .inr ⟨["float", "System.Single"], by decide +kernel, by decide, by decide⟩
  have hfloat' : SameType "System.Single" "float" :=
    .inr ⟨["float", "System.Single"], by decide +kernel, by decide, by decide⟩
  have hr : r.Respelled r' := fun _ => .some (.inr ⟨_, _, rfl, rfl, hvector'⟩)
  have hmethod : x.method.Respelled x'.method :=
    ⟨rfl, hvector, .cons ⟨rfl, hfloat⟩ (.cons ⟨rfl, .refl _⟩ .nil)⟩
  have hdeclared : runtime.Respelled keyword := hfloat'
  have hd : x.Respelled r' x' :=
    ⟨hmethod, .cons (.localDeclaration hdeclared _ _ _) (.cons (.refl _) .nil)⟩
  have hx : (Context.emit ⟨base.extendAll [light], r, none⟩ x).outcome =
      .ok "vec3 Lit(float k, Light l)\n\x7b\nfloat s = k;\nreturn vec3(s);\n\x7d\n" :=
    Traced.outcome_eq_ok_of_toOption (by decide +kernel)
  refine ⟨hbase, hes, hr, hd, hx, ?_⟩
  obtain ⟨⟨text, hok, hok'⟩ | ⟨e, e', herror, -, -⟩, -⟩ := emit_respelled hbase hes hr hd none
  · rw [hok', ← hok, hx]
  · cases herror.symm.trans hx

end Context

end Shading
