import Shading.Proofs.Readability
import Shading.Proofs.Skeleton
import Shading.Proofs.Wording

/-!
# Grouping

The methods whose source texts can be read: an assignment is neither assigned to nor asked for a
member, and arguments and first values stand only in their own places. Two such methods with one
source text have one skeleton, whatever dialects they were written in.

* `Node.Grouped`, `Definition.Grouped`: such expressions and methods.
* `Context.legible_of_grouped`: they become legible.
* `Context.emit_determines_function`: **a source text loses nothing of the skeleton.**
-/

namespace Shading

/-- Words that cannot be taken for something else. -/
def Lexicon.distinct : Lexicon :=
  ⟨Target.IsIdentifier, Target.IsToken, Target.IsChunk⟩

namespace Node

/-- How strongly the parts of an expression hold together when nothing groups them. -/
def binding : Node → Target.Binding
  | assignment .. => .loose
  | _ => .tight

/-- A member behind the expression is its own: assignments leave it to their right sides, and in
numbers the dot is a point. -/
def TakesMember : Node → Prop
  | assignment .. => False
  | literal _ token => Target.beginsNumber token = false
  | _ => True

/-- Expressions that need no parentheses but those of calls. -/
inductive Grouped : Node → Prop where
  | name {loc : Location} {id : String} : Grouped (.name loc id)
  | literal {loc : Location} {token : String} : Grouped (.literal loc token)
  | memberAccess {loc : Location} {target : Node} {member : Ident} {operator : String} :
    Grouped target → target.TakesMember → Grouped (.memberAccess loc target member operator)
  | assignment {loc : Location} {left right : Node} {operator : String} :
    Grouped left → left.kind ≠ .assignment → Grouped right →
    Grouped (.assignment loc left operator right)
  | invocation {loc listLoc : Location} {callee : Node} {args : List Argument} :
    (∀ a ∈ args, Grouped (Argument.value a)) → Grouped (.invocation loc callee listLoc args)
  | objectCreation {loc listLoc : Location} {type : Node} {args : List Argument} :
    (∀ a ∈ args, Grouped (Argument.value a)) → Grouped (.objectCreation loc type listLoc args)

end Node

/-- Methods whose statements are grouped. -/
def Definition.Grouped (d : Definition) : Prop :=
  ∀ n ∈ d.body.statements, n.StatementWith Node.Grouped

namespace Node

theorem binding_eq_tight {n : Node} (h : n.kind ≠ .assignment) : n.binding = .tight := by
  cases n with
  | assignment => exact absurd rfl h
  | _ => rfl

theorem TakesMember.kind_ne {n : Node} (h : n.TakesMember) : n.kind ≠ .assignment := by
  cases n with
  | assignment => exact h.elim
  | _ => exact nofun

end Node

namespace Context

open Target

variable {ctx ctx' : Context}

theorem legible_of_mem {args : List Argument} {es : List Target.Expr}
    (hes : (ctx.lowerArguments args).outcome = .ok es)
    (h : ∀ a ∈ args, ∀ e, (ctx.lowerExpr (Argument.value a)).outcome = .ok e →
      Legible .loose e) : ∀ e ∈ es, Legible .loose e := by
  intro e he
  obtain ⟨a, ha, hea, -⟩ := exists_mem_of_lowerArguments hes he
  exact h a ha e hea

/-- A word that takes a member is a name. -/
theorem isIdentifier_of_takesMember {n : Node} (hn : n.TakesMember) (hg : n.Grouped)
    (hw : ctx.Worded .distinct n) {w : String}
    (h : (ctx.lowerExpr n).outcome = .ok (.word w)) : IsIdentifier w := by
  cases hw with
  | name hid =>
    obtain ⟨⟩ := outcome_lowerExpr_name_eq_ok.1 h
    exact hid
  | literal htoken =>
    obtain ⟨⟩ := outcome_lowerExpr_literal_eq_ok.1 h
    exact IsToken.isIdentifier htoken hn
  | memberAccess _ _ =>
    obtain ⟨_, _, ⟨⟩⟩ := outcome_lowerExpr_memberAccess_eq_ok.1 h
  | assignment _ _ _ => exact hn.elim
  | invocation _ _ =>
    obtain ⟨_, _, _, _, ⟨⟩⟩ := outcome_lowerExpr_invocation_eq_ok.1 h
  | objectCreation _ _ =>
    obtain ⟨_, _, _, _, ⟨⟩⟩ := outcome_lowerExpr_objectCreation_eq_ok.1 h
  | _ => cases hg

/-- Expressions that are grouped become legible. -/
theorem legible_of_grouped {n : Node} (hg : n.Grouped) (hw : ctx.Worded .distinct n)
    {e : Target.Expr} (h : (ctx.lowerExpr n).outcome = .ok e) : Legible n.binding e := by
  induction hg generalizing e with
  | name =>
    obtain rfl := outcome_lowerExpr_name_eq_ok.1 h
    cases hw with
    | name hid => exact .plain (.token (IsIdentifier.isToken hid))
  | literal =>
    obtain rfl := outcome_lowerExpr_literal_eq_ok.1 h
    cases hw with
    | literal htoken => exact .plain (.token htoken)
  | memberAccess hg htakes ih =>
    obtain ⟨t, ht, rfl⟩ := outcome_lowerExpr_memberAccess_eq_ok.1 h
    cases hw with
    | memberAccess htarget hmember =>
      have htight := ih htarget ht
      rw [Node.binding_eq_tight htakes.kind_ne] at htight
      refine htight.access (fun w hw => ?_) hmember
      exact isIdentifier_of_takesMember htakes hg htarget (hw ▸ ht)
  | assignment _ hkind _ ihl ihr =>
    obtain ⟨l, r, hl, hr, rfl⟩ := outcome_lowerExpr_assignment_eq_ok.1 h
    cases hw with
    | assignment hleft hop hright =>
      have htight := ihl hleft hl
      rw [Node.binding_eq_tight hkind] at htight
      exact .assign htight hop (ihr hright hr).toLoose
  | invocation _ ih =>
    obtain ⟨f, es, hf, hes, rfl⟩ := outcome_lowerExpr_invocation_eq_ok.1 h
    cases hw with
    | invocation hfunction hargs =>
      have hlegible := legible_of_mem hes fun a ha e he => (ih a ha (hargs a ha) he).toLoose
      exact .bareCall (hfunction f hf) hlegible
  | objectCreation _ ih =>
    obtain ⟨f, es, hf, hes, rfl⟩ := outcome_lowerExpr_objectCreation_eq_ok.1 h
    cases hw with
    | objectCreation hfunction hargs =>
      have hlegible := legible_of_mem hes fun a ha e he => (ih a ha (hargs a ha) he).toLoose
      exact .bareCall (hfunction f hf) hlegible

theorem legibleStatement_of_grouped {n : Node} {s : Target.Statement}
    (h : StatementLowering ctx n s) (hw : ctx.WordedStatement .distinct n)
    (hg : n.StatementWith Node.Grouped) : LegibleStatement s := by
  cases h with
  | declaration htoken =>
    cases hw with
    | declaration htype hx => exact .declare (htype _ htoken) hx nofun
  | initialization htoken he =>
    cases hw with
    | initialization htype hx hvalue =>
      cases hg with
      | initialization hgrouped =>
        have hlegible := (legible_of_grouped hgrouped hvalue he).toLoose
        exact .declare (htype _ htoken) hx fun _ h => Option.some.inj h ▸ hlegible
  | effect he _ =>
    cases hw with
    | effect hvalue =>
      cases hg with
      | effect hgrouped => exact .effect (legible_of_grouped hgrouped hvalue he).toLoose
  | returnNothing => exact .ret nofun
  | returnValue he _ =>
    cases hw with
    | returnNothing => cases he
    | returnValue hvalue =>
      cases hg with
      | returnNothing => cases he
      | returnValue hgrouped =>
        have hlegible := (legible_of_grouped hgrouped hvalue he).toLoose
        exact .ret fun _ h => Option.some.inj h ▸ hlegible

theorem legibleSignature_of_worded {d : Definition} {s : Target.Signature}
    (h : (ctx.lowerSignature d.method).outcome = .ok s) (hw : ctx.WordedDefinition .distinct d) :
    LegibleSignature s := by
  obtain ⟨htype, hname, hparameters⟩ := outcome_lowerSignature_eq_ok.1 h
  refine ⟨hw.types _ List.mem_cons_self _ htype, hname ▸ hw.name, ?_⟩
  intro q hq
  obtain ⟨p, hp, htoken, hpname⟩ := exists_mem_of_forall₂ hparameters hq
  have hptype : p.type ∈ d.method.signatureTypes :=
    List.mem_cons_of_mem _ (List.mem_map_of_mem hp)
  exact ⟨hw.types _ hptype _ htoken, hpname ▸ hw.parameters p hp⟩

theorem legibleFunction_of_grouped {d : Definition} {f : Target.Function}
    (h : (ctx.lowerFunction d).outcome = .ok f) (hw : ctx.WordedDefinition .distinct d)
    (hg : d.Grouped) : LegibleFunction f := by
  obtain ⟨hsignature, hbody⟩ := outcome_lowerFunction_eq_ok.1 h
  refine ⟨legibleSignature_of_worded hsignature hw, ?_⟩
  intro s hs
  obtain ⟨n, hn, hlowered⟩ := exists_mem_of_forall₂ (outcome_lowerBody_eq_ok.1 hbody) hs
  exact legibleStatement_of_grouped (.of_lowerStatement hlowered) (hw.statements n hn) (hg n hn)

/-- **A source text loses nothing of the skeleton.** Two methods with one source text, under
whatever dialects and resolvers, have one skeleton. -/
theorem emit_determines_function {d d' : Definition} {text : String}
    (h : (ctx.emit d).outcome = .ok text) (h' : (ctx'.emit d').outcome = .ok text)
    (hw : ctx.WordedDefinition .distinct d) (hw' : ctx'.WordedDefinition .distinct d')
    (hg : d.Grouped) (hg' : d'.Grouped) :
    ∃ f, ctx.skeleton? d = some f ∧ ctx'.skeleton? d' = some f := by
  obtain ⟨f, hf, htext⟩ := outcome_emit_eq_ok.1 h
  obtain ⟨f', hf', htext'⟩ := outcome_emit_eq_ok.1 h'
  have hlegible := legibleFunction_of_grouped hf hw hg
  have hlegible' := legibleFunction_of_grouped hf' hw' hg'
  obtain rfl := hlegible.text_injective hlegible' (htext.symm.trans htext')
  exact ⟨f, skeleton?_of_lowerFunction hf, skeleton?_of_lowerFunction hf'⟩

/-- A method of two parameters that calls another one, written in two ways: the types and the method
go by other names in the second one and are known to another dialect. The call has an assignment and
a construction among its arguments. -/
theorem renamed_method_has_one_skeleton :
    let t : SymbolTable := .ofList
      [("Max", .method "System.Math" "Max"), ("Real", .type "float" none)]
    let t' : SymbolTable := .ofList
      [("Largest", .method "System.MathF" "Max"), ("Number", .type "Single" (some "System"))]
    let ctx : Context := ⟨⟨"HLSL", .ofList [("float", "float"), ("bool", "bool")],
      .ofList [(⟨"System.Math", "Max"⟩, "max")]⟩, t.byIdentifier, none⟩
    let ctx' : Context := ⟨⟨"GLSL", .ofList [("System.Single", "float"), ("Flag", "bool")],
      .ofList [(⟨"System.MathF", "Max"⟩, "max")]⟩, t'.byPath, some "Foo.cs"⟩
    let body (function type : String) (a : Node) : Body := .bare [.returnStatement .unknown
      (.invocation .unknown (.name .unknown function) .unknown
        [⟨.unknown, .assignment .unknown a "=" (.literal .unknown "1.0")⟩,
          ⟨.unknown, .objectCreation .unknown (.name .unknown type) .unknown []⟩])]
    let d : Definition := ⟨⟨"Foo", ⟨"float", none⟩,
      [⟨"a", ⟨"float", none⟩⟩, ⟨"b", ⟨"bool", none⟩⟩]⟩, body "Max" "Real" (.name .unknown "a")⟩
    let d' : Definition := ⟨⟨"Foo", ⟨"Single", some "System"⟩,
      [⟨"a", ⟨"Single", some "System"⟩⟩, ⟨"b", ⟨"Flag", none⟩⟩]⟩,
      body "Largest" "Number" (.literal .unknown "a")⟩
    let text := "float Foo(float a, bool b)\n\x7b\nreturn max(a = 1.0, float());\n\x7d\n"
    let f : Target.Function := ⟨⟨"float", "Foo", [⟨"float", "a"⟩, ⟨"bool", "b"⟩]⟩,
      [.ret (some (.call "max" [.assign (.word "a") "=" (.word "1.0"), .call "float" []]))]⟩
    (ctx.emit d).outcome = .ok text ∧ (ctx'.emit d').outcome = .ok text ∧
      ctx.WordedDefinition .distinct d ∧ ctx'.WordedDefinition .distinct d' ∧
      d.Grouped ∧ d'.Grouped ∧ ctx.skeleton? d = some f ∧ ctx'.skeleton? d' = some f := by
  intro t t' ctx ctx' body d d' text f
  have hfoo : IsIdentifier "Foo" := by decide
  have hname : IsIdentifier "a" := by decide
  have hgets : IsChunk "=" := by decide
  have hone : IsToken "1.0" := by decide
  -- besides the words in its assignment a body has those that its two names lead to
  have hbody {ctx : Context} {function type : String} {a : Node} (ha : ctx.Worded .distinct a)
      (hfunction : ∀ f ∈ ctx.functionFor? (.name .unknown function), IsIdentifier f)
      (htype : ∀ f ∈ ctx.typeFor? (.name .unknown type), IsIdentifier f) :
      ∀ n ∈ (body function type a).statements, ctx.WordedStatement .distinct n := by
    refine List.forall_mem_singleton.2 (.returnValue (.invocation ?_ ?_))
    · exact fun f hf => hfunction f (functionFor?_of_calledFunction hf)
    · refine List.forall_mem_cons.2 ⟨.assignment ha hgets (.literal hone), ?_⟩
      refine List.forall_mem_singleton.2 (.objectCreation (fun f hf => ?_) nofun)
      exact htype f (typeFor?_of_constructor hf)
  have hw : ctx.WordedDefinition .distinct d := by
    have htypes : ∀ t ∈ d.method.signatureTypes,
        ∀ token ∈ ctx.dialect.find? (.type t.fullName), IsIdentifier token := by decide
    have hparameters : ∀ p ∈ d.method.parameters, IsIdentifier p.name := by decide
    exact ⟨hfoo, htypes, hparameters, hbody (.name hname) (by decide) (by decide)⟩
  have hw' : ctx'.WordedDefinition .distinct d' := by
    have htypes : ∀ t ∈ d'.method.signatureTypes,
        ∀ token ∈ ctx'.dialect.find? (.type t.fullName), IsIdentifier token := by decide
    have hparameters : ∀ p ∈ d'.method.parameters, IsIdentifier p.name := by decide
    exact ⟨hfoo, htypes, hparameters,
      hbody (.literal (IsIdentifier.isToken hname)) (by decide) (by decide)⟩
  have hgrouped {function type : String} {a : Node} (ha : a.Grouped)
      (hkind : a.kind ≠ .assignment) :
      ∀ n ∈ (body function type a).statements, n.StatementWith Node.Grouped := by
    refine List.forall_mem_singleton.2 (.returnValue (.invocation ?_))
    refine List.forall_mem_cons.2 ⟨.assignment ha hkind .literal, ?_⟩
    exact List.forall_mem_singleton.2 (.objectCreation nofun)
  have hg : d.Grouped := hgrouped .name nofun
  have hg' : d'.Grouped := hgrouped .literal nofun
  have hf : ctx.skeleton? d = some f := rfl
  obtain ⟨f', h, h'⟩ := emit_determines_function rfl rfl hw hw' hg hg'
  obtain rfl : f = f' := Option.some.inj (hf.symm.trans h)
  exact ⟨rfl, rfl, hw, hw', hg, hg', hf, h'⟩

end Context

end Shading
