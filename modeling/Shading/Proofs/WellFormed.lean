import Shading.Proofs.Reading
import Shading.Proofs.Wording

/-!
# Well-formed lines

A lowering asks of some expressions that they do not come out blank, but not of all, and it lowers
arguments, argument lists and first values wherever they stand. So a line can lack an operand, or
have several where one belongs. Here are the statements whose lines follow the grammar, told from
the trees they are lowered from.

* `Node.InPlace`, `Definition.InPlace`: arguments and first values stand in their places.
* `Context.derives_iff_inPlace`: an expression follows the grammar iff it is in place.
* `Context.emit_well_formed_iff`: **all lines of a body are sentences iff its statements are in
  place.**
* `Context.lone_gives_emitted`: a source text with a line that is no sentence.
-/

namespace Shading

/-- Texts without spaces and punctuation. -/
def Lexicon.words : Lexicon :=
  ⟨Target.IsWord, Target.IsWord, Target.IsWord⟩

namespace Node

/-- Expressions without a part that is missing, or that is several where one belongs. Several
arguments belong only in a call, here told by the flag; a first value belongs in no expression. -/
inductive InPlace : Bool → Node → Prop where
  | name {inCall : Bool} {loc : Location} {id : String} : InPlace inCall (.name loc id)
  | literal {inCall : Bool} {loc : Location} {token : String} :
    InPlace inCall (.literal loc token)
  | memberAccess {inCall : Bool} {loc : Location} {target : Node} {member : Ident}
      {operator : String} :
    InPlace inCall target → InPlace inCall (.memberAccess loc target member operator)
  | assignment {inCall : Bool} {loc : Location} {left right : Node} {operator : String} :
    InPlace inCall left → InPlace inCall right →
    InPlace inCall (.assignment loc left operator right)
  | argument {inCall : Bool} {loc : Location} {value : Node} :
    InPlace inCall value → InPlace inCall (.argument ⟨loc, value⟩)
  | singleArgument {inCall : Bool} {loc argLoc : Location} {value : Node} :
    InPlace inCall value → InPlace inCall (.argumentList loc [⟨argLoc, value⟩])
  | argumentList {loc : Location} {args : List Argument} :
    args ≠ [] → (∀ a ∈ args, InPlace true (Argument.value a)) →
    InPlace true (.argumentList loc args)
  | invocation {inCall : Bool} {loc listLoc : Location} {callee : Node} {args : List Argument} :
    (∀ a ∈ args, InPlace true (Argument.value a)) →
    InPlace inCall (.invocation loc callee listLoc args)
  | objectCreation {inCall : Bool} {loc listLoc : Location} {type : Node} {args : List Argument} :
    (∀ a ∈ args, InPlace true (Argument.value a)) →
    InPlace inCall (.objectCreation loc type listLoc args)

end Node

/-- Methods whose statements are in place; outside of calls an expression has one value. -/
def Definition.InPlace (d : Definition) : Prop :=
  ∀ n ∈ d.body.statements, n.StatementWith (Node.InPlace false)

namespace Target

/-- Functions whose lines follow the grammar. -/
def Function.IsWellFormed (f : Function) : Prop :=
  ∀ s ∈ f.body, Sentence s.tokens

/-- What may stand in a call, or outside of every call. -/
def Phrase.within (inCall : Bool) : Phrase :=
  if inCall then .arguments else .expression

namespace Derives

variable {inCall : Bool} {ts ts' : List Token} {op : String}

theorem within_operand (h : Derives .operand ts) : Derives (.within inCall) ts := by
  cases inCall with
  | false => exact .operand h
  | true => exact .last (.operand h)

theorem within_append_assign (h : Derives (.within inCall) ts) (hop : IsWord op)
    (h' : Derives (.within inCall) ts') :
    Derives (.within inCall) (ts ++ .operator op :: ts') := by
  cases inCall with
  | false => exact append_assign h hop h'
  | true => exact arguments_append_assign h hop h'

end Derives

end Target

namespace Context

open Target

variable {ctx : Context}

/-- Arguments that are phrases of their own are phrases in a row. -/
theorem derives_of_mem_tokenLists {args : List Argument} {es : List Target.Expr}
    (hes : (ctx.lowerArguments args).outcome = .ok es)
    (h : ∀ a ∈ args, ∀ e, (ctx.lowerExpr (Argument.value a)).outcome = .ok e →
      Derives .arguments e.tokens) :
    ∀ ts ∈ Expr.tokenLists es, Derives .arguments ts := by
  intro ts hts
  rw [Expr.tokenLists_eq_map] at hts
  obtain ⟨e, he, rfl⟩ := List.mem_map.1 hts
  obtain ⟨a, ha, hea, -⟩ := exists_mem_of_lowerArguments hes he
  exact h a ha e hea

/-- What is in place follows the grammar. -/
theorem derives_of_inPlace {inCall : Bool} {n : Node} (hplace : n.InPlace inCall)
    (hw : ctx.Worded .words n) {e : Target.Expr} (h : (ctx.lowerExpr n).outcome = .ok e) :
    Derives (.within inCall) e.tokens := by
  induction hplace generalizing e with
  | name =>
    obtain rfl := outcome_lowerExpr_name_eq_ok.1 h
    cases hw with
    | name hid => exact (Derives.word hid).within_operand
  | literal =>
    obtain rfl := outcome_lowerExpr_literal_eq_ok.1 h
    cases hw with
    | literal htoken => exact (Derives.word htoken).within_operand
  | memberAccess _ ih =>
    obtain ⟨t, ht, rfl⟩ := outcome_lowerExpr_memberAccess_eq_ok.1 h
    cases hw with
    | memberAccess htarget hmember => exact (ih htarget ht).append_member hmember
  | assignment _ _ ihl ihr =>
    obtain ⟨l, r, hl, hr, rfl⟩ := outcome_lowerExpr_assignment_eq_ok.1 h
    cases hw with
    | assignment hleft hop hright =>
      exact (ihl hleft hl).within_append_assign hop (ihr hright hr)
  | argument _ ih =>
    cases hw with
    | argument hvalue => exact ih hvalue (outcome_lowerExpr_argument_eq_ok.1 h).1
  | singleArgument _ ih =>
    obtain ⟨es, hes, rfl⟩ := outcome_lowerExpr_argumentList_eq_ok.1 h
    rw [outcome_lowerArguments_eq_ok] at hes
    cases hw with
    | argumentList hargs =>
      cases hes with
      | cons ha hnil =>
        cases hnil
        have hvalue := ih (hargs _ List.mem_cons_self) ha.1
        exact hvalue
  | argumentList hne _ ih =>
    obtain ⟨es, hes, rfl⟩ := outcome_lowerExpr_argumentList_eq_ok.1 h
    cases hw with
    | argumentList hargs =>
      have hderives := derives_of_mem_tokenLists hes fun a ha e he => ih a ha (hargs a ha) he
      refine Derives.arguments_separated ?_ hderives
      -- every argument leaves an expression, so some tokens are there
      have hlength := (outcome_lowerArguments_eq_ok.1 hes).length_eq
      intro hnil
      rw [Expr.tokenLists_eq_map, List.map_eq_nil_iff] at hnil
      rw [hnil] at hlength
      exact hne (List.eq_nil_of_length_eq_zero hlength)
  | invocation _ ih =>
    obtain ⟨f, es, hf, hes, rfl⟩ := outcome_lowerExpr_invocation_eq_ok.1 h
    cases hw with
    | invocation hfunction hargs =>
      have hderives := derives_of_mem_tokenLists hes fun a ha e he => ih a ha (hargs a ha) he
      exact (Derives.call_separated (hfunction f hf) hderives).within_operand
  | objectCreation _ ih =>
    obtain ⟨f, es, hf, hes, rfl⟩ := outcome_lowerExpr_objectCreation_eq_ok.1 h
    cases hw with
    | objectCreation hfunction hargs =>
      have hderives := derives_of_mem_tokenLists hes fun a ha e he => ih a ha (hargs a ha) he
      exact (Derives.call_separated (hfunction f hf) hderives).within_operand

/-- What a reader that waits for an operand comes to at the end of the text of an expression: it
has read an operand, and the expression is in place, or it still waits. -/
def ReadInPlace (ctx : Context) (n : Node) : Prop :=
  ∀ ⦃e d s t⦄, (ctx.lowerExpr n).outcome = .ok e → Reading.Awaits d s → s.run e.tokens = some t →
    t = .done d ∧ n.InPlace (0 < d) ∨ t = .operand d ∨ e.tokens = [] ∧ t = s

/-- Behind an expression a token that needs an operand before it finds one. -/
theorem ReadInPlace.of_run_append {n : Node} (h : ctx.ReadInPlace n) {e : Target.Expr} {d : ℕ}
    {s t : Reading} {tok : Token} {ts : List Token} (he : (ctx.lowerExpr n).outcome = .ok e)
    (hs : Reading.Awaits d s) (hrun : s.run (e.tokens ++ tok :: ts) = some t)
    (hword : ∀ w, tok ≠ .word w) (hclosing : tok ≠ .closing) :
    n.InPlace (0 < d) ∧ ∃ u, (Reading.done d).next tok = some u ∧ u.run ts = some t := by
  rw [Reading.run_append, Option.bind_eq_some_iff] at hrun
  obtain ⟨r, hr, hrun⟩ := hrun
  rw [Reading.run_cons, Option.bind_eq_some_iff] at hrun
  -- a reader that still waits for an operand does not get over the token
  rcases h he hs hr with ⟨rfl, hplace⟩ | rfl | ⟨-, rfl⟩
  · exact ⟨hplace, hrun⟩
  · obtain ⟨u, hu, -⟩ := hrun
    rw [Reading.Awaits.operand.next_eq_none hword hclosing] at hu
    cases hu
  · obtain ⟨u, hu, -⟩ := hrun
    rw [hs.next_eq_none hword hclosing] at hu
    cases hu

/-- Arguments that are read to their end are in place, and outside of calls there is only one. -/
theorem inPlace_of_run_separated {args : List Argument} {es : List Target.Expr}
    (hes : (ctx.lowerArguments args).outcome = .ok es) (hne : args ≠ [])
    (ih : ∀ a ∈ args, ctx.ReadInPlace (Argument.value a)) {d : ℕ} {s t : Reading}
    (hs : Reading.Awaits d s) (hrun : s.run (separated (Expr.tokenLists es)) = some t) :
    t = .done d ∧ (∀ a ∈ args, (Argument.value a).InPlace (0 < d)) ∧ (0 < d ∨ args.length = 1) ∨
      t = .operand d := by
  rw [outcome_lowerArguments_eq_ok] at hes
  induction hes generalizing s with
  | nil => exact absurd rfl hne
  | @cons a e args es ha hes iha =>
    cases hes with
    | nil =>
      rcases ih a List.mem_cons_self ha.1 hs hrun with ⟨rfl, hplace⟩ | ht | ⟨hnil, -⟩
      · refine .inl ⟨rfl, fun a' ha' => ?_, .inr rfl⟩
        obtain rfl := List.mem_singleton.1 ha'
        exact hplace
      · exact .inr ht
      · -- no argument comes out blank
        exact absurd hnil (Expr.tokens_ne_nil ha.2)
    | cons ha' hes =>
      -- a comma behind the first argument: this is in a call
      obtain ⟨hplace, u, hu, hrun⟩ :=
        (ih a List.mem_cons_self).of_run_append ha.1 hs hrun nofun nofun
      cases d with
      | zero => cases hu
      | succ d =>
        obtain rfl := Option.some.inj hu
        have ih' := fun a h => ih a (List.mem_cons_of_mem _ h)
        rcases iha (List.cons_ne_nil _ _) ih' .operand hrun with ⟨rfl, hall, -⟩ | ht
        · refine .inl ⟨rfl, fun a' ha' => ?_, .inl d.succ_pos⟩
          rcases List.mem_cons.1 ha' with rfl | ha'
          · exact hplace
          · exact hall a' ha'
        · exact .inr ht

/-- A call that is read to its end has its arguments in place. -/
theorem inPlace_of_run_call {f : String} {args : List Argument} {es : List Target.Expr}
    (hes : (ctx.lowerArguments args).outcome = .ok es)
    (ih : ∀ a ∈ args, ctx.ReadInPlace (Argument.value a)) {d : ℕ} {s t : Reading}
    (hs : Reading.Awaits d s) (hrun : s.run (Expr.call f es).tokens = some t) :
    t = .done d ∧ ∀ a ∈ args, (Argument.value a).InPlace true := by
  have hsplit : ∃ u, (Reading.opened (d + 1)).run (separated (Expr.tokenLists es)) = some u ∧
      u.next .closing = some t := by
    rw [Expr.tokens, Reading.run_cons, hs.next_word] at hrun
    simpa [Reading.next, Option.bind_eq_some_iff] using hrun
  obtain ⟨u, hu, hclosing⟩ := hsplit
  -- the reader gets over the end of the call where it was just opened, or behind an operand
  rcases eq_or_ne args [] with rfl | hne
  · rw [outcome_lowerArguments_eq_ok] at hes
    cases hes
    obtain rfl := Option.some.inj hu
    exact ⟨(Option.some.inj hclosing).symm, List.forall_mem_nil _⟩
  · rcases inPlace_of_run_separated hes hne ih .opened hu with ⟨rfl, hplace, -⟩ | rfl
    · rw [decide_eq_true d.succ_pos] at hplace
      exact ⟨(Option.some.inj hclosing).symm, hplace⟩
    · cases hclosing

/-- **Only what is in place is read to its end.** -/
theorem readInPlace (n : Node) : ctx.ReadInPlace n := by
  induction n using Node.expression_induction with
  | name loc id =>
    intro e d s t h hs hrun
    obtain rfl := outcome_lowerExpr_name_eq_ok.1 h
    rw [Expr.tokens, hs.run_word] at hrun
    exact .inl ⟨(Option.some.inj hrun).symm, .name⟩
  | literal loc token =>
    intro e d s t h hs hrun
    obtain rfl := outcome_lowerExpr_literal_eq_ok.1 h
    rw [Expr.tokens, hs.run_word] at hrun
    exact .inl ⟨(Option.some.inj hrun).symm, .literal⟩
  | memberAccess loc target member operator ih =>
    intro e d s t h hs hrun
    obtain ⟨e', he', rfl⟩ := outcome_lowerExpr_memberAccess_eq_ok.1 h
    obtain ⟨hplace, u, hu, hrun⟩ := ih.of_run_append he' hs hrun (by simp) (by simp)
    obtain rfl := Option.some.inj hu
    exact .inl ⟨(Option.some.inj hrun).symm, .memberAccess hplace⟩
  | assignment loc left operator right ihl ihr =>
    intro e d s t h hs hrun
    obtain ⟨l, r, hl, hr, rfl⟩ := outcome_lowerExpr_assignment_eq_ok.1 h
    obtain ⟨hleft, u, hu, hrun⟩ := ihl.of_run_append hl hs hrun (by simp) (by simp)
    obtain rfl := Option.some.inj hu
    rcases ihr hr .operand hrun with ⟨rfl, hright⟩ | ht | ⟨-, ht⟩
    · exact .inl ⟨rfl, .assignment hleft hright⟩
    · exact .inr (.inl ht)
    · exact .inr (.inl ht)
  | argument loc value ih =>
    intro e d s t h hs hrun
    rcases ih (outcome_lowerExpr_argument_eq_ok.1 h).1 hs hrun with ⟨rfl, hplace⟩ | hwait
    · exact .inl ⟨rfl, .argument hplace⟩
    · exact .inr hwait
  | argumentList loc args ih =>
    intro e d s t h hs hrun
    obtain ⟨es, hes, rfl⟩ := outcome_lowerExpr_argumentList_eq_ok.1 h
    rcases eq_or_ne args [] with rfl | hne
    · obtain rfl := Except.ok.inj hes
      exact .inr (.inr ⟨rfl, (Option.some.inj hrun).symm⟩)
    rcases inPlace_of_run_separated hes hne ih hs hrun with ⟨rfl, hplace, hd | hone⟩ | ht
    · rw [decide_eq_true hd] at hplace ⊢
      exact .inl ⟨rfl, .argumentList hne hplace⟩
    · obtain ⟨⟨argLoc, value⟩, rfl⟩ := List.length_eq_one_iff.1 hone
      exact .inl ⟨rfl, .singleArgument (hplace _ List.mem_cons_self)⟩
    · exact .inr (.inl ht)
  | initializer loc value ih =>
    intro e d s t h hs hrun
    obtain ⟨v, hv, rfl⟩ := outcome_lowerExpr_initializer_eq_ok.1 h
    -- a first value begins with a sign that no operand begins with
    rw [Expr.tokens, Reading.run_cons, hs.next_eq_none (t := .gives) (by simp) (by simp)] at hrun
    cases hrun
  | invocation loc callee listLoc args ih =>
    intro e d s t h hs hrun
    obtain ⟨f, es, -, hes, rfl⟩ := outcome_lowerExpr_invocation_eq_ok.1 h
    obtain ⟨ht, hplace⟩ := inPlace_of_run_call hes ih hs hrun
    exact .inl ⟨ht, .invocation hplace⟩
  | objectCreation loc type listLoc args ih =>
    intro e d s t h hs hrun
    obtain ⟨f, es, -, hes, rfl⟩ := outcome_lowerExpr_objectCreation_eq_ok.1 h
    obtain ⟨ht, hplace⟩ := inPlace_of_run_call hes ih hs hrun
    exact .inl ⟨ht, .objectCreation hplace⟩
  | other n hn =>
    intro e d s t h
    exact absurd h (outcome_lowerExpr_ne_ok hn e)

/-- An expression follows the grammar exactly when it is in place. -/
theorem derives_iff_inPlace {n : Node} (hw : ctx.Worded .words n) {e : Target.Expr}
    (h : (ctx.lowerExpr n).outcome = .ok e) :
    Derives .expression e.tokens ↔ n.InPlace false := by
  refine ⟨fun hd => ?_, fun hplace => derives_of_inPlace hplace hw h⟩
  have hrun := hd.run_eq_done (Reading.Awaits.operand (d := 0)) nofun
  rcases readInPlace n h .operand hrun with ⟨-, hplace⟩ | hwait | ⟨-, hwait⟩
  · exact hplace
  · cases hwait
  · cases hwait

/-- The line of a statement is a sentence exactly when the statement is in place. -/
theorem sentence_iff_inPlace {n : Node} {s : Target.Statement}
    (h : StatementLowering ctx n s) (hw : ctx.WordedStatement .words n) :
    Sentence s.tokens ↔ n.StatementWith (Node.InPlace false) := by
  cases h with
  | declaration htoken =>
    cases hw with
    | declaration htype hx =>
      exact iff_of_true (.declaration (htype _ htoken) hx) .declaration
  | initialization htoken he =>
    cases hw with
    | initialization htype hx hvalue =>
      rw [Statement.tokens, Sentence.initialization_iff, derives_iff_inPlace hvalue he]
      constructor
      · rintro ⟨-, -, hplace⟩
        exact .initialization hplace
      · intro hn
        cases hn with
        | initialization hplace => exact ⟨htype _ htoken, hx, hplace⟩
  | effect he _ =>
    cases hw with
    | effect hvalue =>
      rw [Statement.tokens, Sentence.effect_iff fun _ => Expr.mem_tokens,
        derives_iff_inPlace hvalue he]
      constructor
      · exact .effect
      · intro hn
        cases hn with
        | effect hplace => exact hplace
  | returnNothing => exact iff_of_true .returnNothing .returnNothing
  | returnValue he _ =>
    cases hw with
    | returnNothing => cases he
    | returnValue hvalue =>
      rw [Statement.tokens, Sentence.returnValue_iff, derives_iff_inPlace hvalue he]
      constructor
      · exact .returnValue
      · intro hn
        cases hn with
        | returnNothing => cases he
        | returnValue hplace => exact hplace

/-- **All lines of a body are sentences iff its statements are in place.** The lines of a source
text are those of a lowered function, each written as its tokens. The tokens decide, since in the
mere text `= b;` the sign could pass for a type and the line for a declaration. -/
theorem emit_well_formed_iff {d : Definition} {text : String}
    (h : (ctx.emit d).outcome = .ok text) (hw : ctx.WordedDefinition .words d) :
    ∃ f, (ctx.lowerFunction d).outcome = .ok f ∧ text = f.text "" ∧
      (∀ s ∈ f.body, s.line "" = written s.tokens) ∧ (f.IsWellFormed ↔ d.InPlace) := by
  obtain ⟨f, hf, htext⟩ := outcome_emit_eq_ok.1 h
  have hbody := outcome_lowerBody_eq_ok.1 (outcome_lowerFunction_eq_ok.1 hf).2
  refine ⟨f, hf, htext, fun s _ => ?_, ?_⟩
  · rw [Statement.line, String.empty_append, Statement.text_eq_written]
  · have hws := hw.statements
    -- statement by statement, along the body
    rw [Target.Function.IsWellFormed, Definition.InPlace]
    generalize f.body = ss at hbody
    generalize d.body.statements = ns at hbody hws
    induction hbody with
    | nil => exact iff_of_true nofun nofun
    | cons hn _ ih =>
      rw [List.forall_mem_cons] at hws
      rw [List.forall_mem_cons, List.forall_mem_cons]
      exact and_congr (sentence_iff_inPlace (.of_lowerStatement hn) hws.1) (ih hws.2)

theorem wordedDefinition_words {value : Node} (h : floatOnly.Worded .words value) :
    floatOnly.WordedDefinition .words (initializing "float" value) := by
  refine wordedDefinition_initializing (by decide : IsWord "Foo") (by decide : IsWord "x") ?_ h
  intro token htoken
  obtain rfl : "float" = token := Option.some.inj htoken
  exact (by decide : IsWord "float")

/-- A list of one argument may stand for its argument, also on the right of an assignment. -/
theorem nested_assignment_well_formed :
    let d := initializing "float" (.assignment .unknown (.name .unknown "a") "="
      (.argumentList .unknown [⟨.unknown, .literal .unknown "1.0"⟩]))
    (floatOnly.emit d).outcome = .ok "float Foo()\n\x7b\nfloat x = a = 1.0;\n\x7d\n" ∧
      floatOnly.WordedDefinition .words d ∧
      ∃ f, (floatOnly.lowerFunction d).outcome = .ok f ∧
        "float Foo()\n\x7b\nfloat x = a = 1.0;\n\x7d\n" = f.text "" ∧
        (∀ s ∈ f.body, s.line "" = written s.tokens) ∧
        (f.IsWellFormed ↔ d.InPlace) := by
  intro d
  have hw : floatOnly.WordedDefinition .words d := by
    refine wordedDefinition_words (.assignment (.name ?_) ?_ (.argumentList ?_))
    · exact (by decide : IsWord "a")
    · exact (by decide : IsWord "=")
    · intro a ha
      obtain rfl := List.mem_singleton.1 ha
      exact .literal (by decide : IsWord "1.0")
  exact ⟨rfl, hw, emit_well_formed_iff rfl hw⟩

/-- An empty argument list as a first value is lowered all the same, and its line, which lacks the
value, is no sentence. -/
theorem lone_gives_emitted :
    (floatOnly.emit (initializing "float" (.argumentList .unknown []))).outcome =
        .ok "float Foo()\n\x7b\nfloat x = ;\n\x7d\n" ∧
      floatOnly.WordedDefinition .words (initializing "float" (.argumentList .unknown [])) ∧
      ¬ ∃ ts, Sentence ts ∧ written ts = "float x = ;" := by
  refine ⟨rfl, wordedDefinition_words (.argumentList nofun), ?_⟩
  rintro ⟨ts, hts, heq⟩
  exact hts.written_ne "float x =" heq

end Context

end Shading
