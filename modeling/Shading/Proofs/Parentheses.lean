import Shading.Proofs.Operand
import Shading.Proofs.Regrouping
import Shading.Proofs.Skeleton
import Shading.Proofs.Wording

/-!
# Where parentheses are missing

Nothing is put in parentheses but arguments, so an assignment can get lost where an operand belongs:
as the target of a member access, or as the left side of another assignment. Everywhere else a text
is read as the expression that it was written from.

* `Node.Proper`: arguments and first values in their own places, and no literal asked for a member.
* `Node.AssignsToOperands`: no assignment where an operand belongs.
* `Context.grouping_survives_iff`: **grouping survives writing iff no parentheses would have been
  needed.**
-/

namespace Shading

/-- Words that can be told apart by a reader. -/
def Lexicon.readable : Lexicon :=
  ⟨Target.IsReadableName, Target.IsReadableLiteral, Target.IsUnmarked⟩

namespace Node

variable {n k m : Node} {place : Place}

/-- Arguments, rows of them and first values stand in their own places only, and no literal is asked
for a member. -/
structure Proper (n : Node) : Prop where
  argument : ∀ m : Node, m.Part n → m.kind ≠ .argument
  argumentList : ∀ m : Node, m.Part n → m.kind ≠ .argumentList
  initializer : ∀ m : Node, m.Part n → m.kind ≠ .initializer
  target : ∀ m : Node, m.Part n → ∀ t : Node, (Place.target, t) ∈ m.operands → t.kind ≠ .literal

theorem Proper.operand (h : n.Proper) (hk : (place, k) ∈ n.operands) : k.Proper where
  argument m hm := h.argument m (.operand hk hm)
  argumentList m hm := h.argumentList m (.operand hk hm)
  initializer m hm := h.initializer m (.operand hk hm)
  target m hm := h.target m (.operand hk hm)

theorem Proper.of_operands
    (hkind : n.kind ≠ .argument ∧ n.kind ≠ .argumentList ∧ n.kind ≠ .initializer)
    (htarget : ∀ t, (Place.target, t) ∈ n.operands → t.kind ≠ .literal)
    (h : ∀ k ∈ n.operands, k.2.Proper) : n.Proper where
  argument := forall_part_iff.2 ⟨hkind.1, fun k hk => (h k hk).argument⟩
  argumentList := forall_part_iff.2 ⟨hkind.2.1, fun k hk => (h k hk).argumentList⟩
  initializer := forall_part_iff.2 ⟨hkind.2.2, fun k hk => (h k hk).initializer⟩
  target := forall_part_iff.2 ⟨htarget, fun k hk => (h k hk).target⟩

/-- No assignment is asked for a member or assigned to. -/
def AssignsToOperands (n : Node) : Prop :=
  ∀ m : Node, m.Part n → ∀ k ∈ m.operands, k.1 = .target ∨ k.1 = .left → k.2.kind ≠ .assignment

theorem assignsToOperands_iff : n.AssignsToOperands ↔
    (∀ k ∈ n.operands, k.1 = .target ∨ k.1 = .left → k.2.kind ≠ .assignment) ∧
      ∀ k ∈ n.operands, k.2.AssignsToOperands :=
  forall_part_iff

theorem assignsToOperands_memberAccess_iff {loc : Location} {target : Node} {member : Ident}
    {operator : String} : (memberAccess loc target member operator).AssignsToOperands ↔
      target.kind ≠ .assignment ∧ target.AssignsToOperands := by
  rw [assignsToOperands_iff]
  simp [operands]

theorem assignsToOperands_assignment_iff {loc : Location} {left right : Node} {operator : String} :
    (assignment loc left operator right).AssignsToOperands ↔
      (left.kind ≠ .assignment ∧ left.AssignsToOperands) ∧ right.AssignsToOperands := by
  rw [assignsToOperands_iff]
  simp [operands, and_assoc]

/-- Among arguments an assignment may stand as it is. -/
theorem assignsToOperands_of_arguments {args : List Argument}
    (hn : n.operands = args.map fun a => (Place.argument, a.value)) :
    n.AssignsToOperands ↔ ∀ a ∈ args, (Argument.value a).AssignsToOperands := by
  rw [assignsToOperands_iff, hn]
  simp

end Node

namespace Context

open Target

variable {ctx : Context} {n : Node} {e : Expr}

/-- Only names and literals are lowered to words. -/
theorem isReadableName_of_word (hw : ctx.Worded .readable n) (hp : n.Proper)
    (hn : n.kind ≠ .literal) {w : String} (h : (ctx.lowerExpr n).outcome = .ok (.word w)) :
    IsReadableName w := by
  cases hw with
  | name hid =>
    obtain ⟨⟩ := outcome_lowerExpr_name_eq_ok.1 h
    exact hid
  | literal _ => exact absurd rfl hn
  | memberAccess _ _ => obtain ⟨_, _, ⟨⟩⟩ := outcome_lowerExpr_memberAccess_eq_ok.1 h
  | assignment _ _ _ => obtain ⟨_, _, _, _, ⟨⟩⟩ := outcome_lowerExpr_assignment_eq_ok.1 h
  | initializer _ => exact absurd rfl (hp.initializer _ .whole)
  | argument _ => exact absurd rfl (hp.argument _ .whole)
  | argumentList _ => exact absurd rfl (hp.argumentList _ .whole)
  | invocation _ _ => obtain ⟨_, _, _, _, ⟨⟩⟩ := outcome_lowerExpr_invocation_eq_ok.1 h
  | objectCreation _ _ => obtain ⟨_, _, _, _, ⟨⟩⟩ := outcome_lowerExpr_objectCreation_eq_ok.1 h

/-- Expressions whose words can be told apart are lowered to such expressions. -/
theorem readable_of_worded (hw : ctx.Worded .readable n) (hp : n.Proper)
    (h : (ctx.lowerExpr n).outcome = .ok e) : e.Readable := by
  induction hw generalizing e with
  | name hid =>
    obtain rfl := outcome_lowerExpr_name_eq_ok.1 h
    exact .word (IsReadableName.isReadableLiteral hid)
  | literal htoken =>
    obtain rfl := outcome_lowerExpr_literal_eq_ok.1 h
    exact .word htoken
  | memberAccess htarget hmember ih =>
    obtain ⟨t, ht, rfl⟩ := outcome_lowerExpr_memberAccess_eq_ok.1 h
    have hp' := hp.operand (List.mem_singleton_self _)
    have hkind := hp.target _ .whole _ (List.mem_singleton_self _)
    refine .access (ih hp' ht) (fun w hword => ?_) hmember
    exact isReadableName_of_word htarget hp' hkind (hword ▸ ht)
  | assignment hleft hop hright ihl ihr =>
    obtain ⟨l, r, hl, hr, rfl⟩ := outcome_lowerExpr_assignment_eq_ok.1 h
    have hpl := hp.operand List.mem_cons_self
    have hpr := hp.operand (List.mem_cons_of_mem _ List.mem_cons_self)
    exact .assign (ihl hpl hl) hop (ihr hpr hr)
  | initializer _ => exact absurd rfl (hp.initializer _ .whole)
  | argument _ => exact absurd rfl (hp.argument _ .whole)
  | argumentList _ => exact absurd rfl (hp.argumentList _ .whole)
  | invocation hfunction hargs ih =>
    obtain ⟨f, es, hf, hes, rfl⟩ := outcome_lowerExpr_invocation_eq_ok.1 h
    refine .call (hfunction f hf) fun e he => ?_
    obtain ⟨a, ha, hea, -⟩ := exists_mem_of_lowerArguments hes he
    exact ih a ha (hp.operand (List.mem_map_of_mem ha)) hea
  | objectCreation hfunction hargs ih =>
    obtain ⟨f, es, hf, hes, rfl⟩ := outcome_lowerExpr_objectCreation_eq_ok.1 h
    refine .call (hfunction f hf) fun e he => ?_
    obtain ⟨a, ha, hea, -⟩ := exists_mem_of_lowerArguments hes he
    exact ih a ha (hp.operand (List.mem_map_of_mem ha)) hea

/-- Assignments and nothing else are lowered to assignments. -/
theorem kind_eq_assignment_iff (hw : ctx.Worded .readable n) (hp : n.Proper)
    (h : (ctx.lowerExpr n).outcome = .ok e) :
    n.kind = .assignment ↔ ∃ l op r, e = .assign l op r := by
  cases hw with
  | name _ =>
    obtain rfl := outcome_lowerExpr_name_eq_ok.1 h
    simp [Node.kind]
  | literal _ =>
    obtain rfl := outcome_lowerExpr_literal_eq_ok.1 h
    simp [Node.kind]
  | memberAccess _ _ =>
    obtain ⟨_, _, rfl⟩ := outcome_lowerExpr_memberAccess_eq_ok.1 h
    simp [Node.kind]
  | assignment _ _ _ =>
    obtain ⟨_, _, _, _, rfl⟩ := outcome_lowerExpr_assignment_eq_ok.1 h
    simp [Node.kind]
  | initializer _ => exact absurd rfl (hp.initializer _ .whole)
  | argument _ => exact absurd rfl (hp.argument _ .whole)
  | argumentList _ => exact absurd rfl (hp.argumentList _ .whole)
  | invocation _ _ =>
    obtain ⟨_, _, _, _, rfl⟩ := outcome_lowerExpr_invocation_eq_ok.1 h
    simp [Node.kind]
  | objectCreation _ _ =>
    obtain ⟨_, _, _, _, rfl⟩ := outcome_lowerExpr_objectCreation_eq_ok.1 h
    simp [Node.kind]

theorem ordered_tight_iff (hw : ctx.Worded .readable n) (hp : n.Proper)
    (h : (ctx.lowerExpr n).outcome = .ok e) :
    Ordered .tight e ↔ n.kind ≠ .assignment ∧ Ordered .loose e := by
  rw [ne_eq, kind_eq_assignment_iff hw hp h]
  constructor
  · intro htight
    refine ⟨?_, .loosen htight⟩
    rintro ⟨l, op, r, rfl⟩
    cases htight
  · rintro ⟨hno, hloose⟩
    exact hloose.tight_of_ne_assign fun l op r he => hno ⟨l, op, r, he⟩

/-- A row of arguments needs no parentheses iff none of them does. -/
theorem forall_ordered_iff {args : List Argument} {es : List Expr}
    (hes : (ctx.lowerArguments args).outcome = .ok es)
    (h : ∀ a ∈ args, ∀ e, (ctx.lowerExpr (Argument.value a)).outcome = .ok e →
      (Ordered .loose e ↔ (Argument.value a).AssignsToOperands)) :
    (∀ e ∈ es, Ordered .loose e) ↔ ∀ a ∈ args, (Argument.value a).AssignsToOperands := by
  have hrow := outcome_lowerArguments_eq_ok.1 hes
  constructor
  · intro hall a ha
    obtain ⟨e, he, hea, -⟩ := exists_mem_of_forall₂ hrow.flip ha
    exact (h a ha e hea).1 (hall e he)
  · intro hall e he
    obtain ⟨a, ha, hea, -⟩ := exists_mem_of_forall₂ hrow he
    exact (h a ha e hea).2 (hall a ha)

/-- **An expression needs no parentheses iff no assignment stands where an operand belongs.** -/
theorem ordered_iff_assignsToOperands (hw : ctx.Worded .readable n) (hp : n.Proper)
    (h : (ctx.lowerExpr n).outcome = .ok e) : Ordered .loose e ↔ n.AssignsToOperands := by
  induction hw generalizing e with
  | name _ =>
    obtain rfl := outcome_lowerExpr_name_eq_ok.1 h
    exact iff_of_true (.loosen .word) (Node.assignsToOperands_iff.2 ⟨nofun, nofun⟩)
  | literal _ =>
    obtain rfl := outcome_lowerExpr_literal_eq_ok.1 h
    exact iff_of_true (.loosen .word) (Node.assignsToOperands_iff.2 ⟨nofun, nofun⟩)
  | @memberAccess loc target member htarget _ ih =>
    obtain ⟨t, ht, rfl⟩ := outcome_lowerExpr_memberAccess_eq_ok.1 h
    have hp' := hp.operand (List.mem_singleton_self _)
    have hiff : Ordered .loose t ↔ target.AssignsToOperands := ih hp' ht
    rw [ordered_access_iff, ordered_tight_iff htarget hp' ht, hiff,
      Node.assignsToOperands_memberAccess_iff]
  | @assignment loc left right operator hleft _ _ ihl ihr =>
    obtain ⟨l, r, hl, hr, rfl⟩ := outcome_lowerExpr_assignment_eq_ok.1 h
    have hpl := hp.operand List.mem_cons_self
    have hpr := hp.operand (List.mem_cons_of_mem _ List.mem_cons_self)
    have hleft' : Ordered .loose l ↔ left.AssignsToOperands := ihl hpl hl
    have hright' : Ordered .loose r ↔ right.AssignsToOperands := ihr hpr hr
    rw [ordered_assign_iff, ordered_tight_iff hleft hpl hl, hleft', hright',
      Node.assignsToOperands_assignment_iff]
  | initializer _ => exact absurd rfl (hp.initializer _ .whole)
  | argument _ => exact absurd rfl (hp.argument _ .whole)
  | argumentList _ => exact absurd rfl (hp.argumentList _ .whole)
  | invocation _ _ ih =>
    obtain ⟨f, es, -, hes, rfl⟩ := outcome_lowerExpr_invocation_eq_ok.1 h
    rw [ordered_call_iff, Node.assignsToOperands_of_arguments rfl]
    exact forall_ordered_iff hes fun a ha e he => ih a ha (hp.operand (List.mem_map_of_mem ha)) he
  | objectCreation _ _ ih =>
    obtain ⟨f, es, -, hes, rfl⟩ := outcome_lowerExpr_objectCreation_eq_ok.1 h
    rw [ordered_call_iff, Node.assignsToOperands_of_arguments rfl]
    exact forall_ordered_iff hes fun a ha e he => ih a ha (hp.operand (List.mem_map_of_mem ha)) he

/-- **Grouping survives writing iff no parentheses would have been needed.** The text of an
expression whose words can be told apart is always read as an expression with that text. This is the
skeleton of the expression iff no assignment is asked for a member or assigned to. -/
theorem grouping_survives_iff {text : String} (h : (ctx.expressionText n).outcome = .ok text)
    (hw : ctx.Worded .readable n) (hp : n.Proper) :
    ∃ e e', ctx.exprSkeleton? n = some e ∧ Expr.parse text = some e' ∧ e'.text = text ∧
      (e' = e ↔ n.AssignsToOperands) := by
  obtain ⟨e, he, htext⟩ := Traced.outcome_bind_eq_ok.1 h
  obtain rfl : e.text = text := Except.ok.inj htext
  have hreadable := readable_of_worded hw hp he
  have hparse : Expr.parse e.text = some e.regrouped := Expr.parse_text hreadable
  refine ⟨e, e.regrouped, exprSkeleton?_of_lowerExpr he, hparse, Expr.text_of_parse hparse, ?_⟩
  rw [← ordered_iff_assignsToOperands hw hp he, ← Expr.parse_text_iff hreadable, hparse,
    Option.some.injEq]

/-- A call with an assignment for its argument is read as it is meant. Where it is assigned and the
assignment is asked for a member, the member goes to the call alone. -/
theorem assigned_call_regroups :
    let t : SymbolTable := .ofList [("Magnitude", .method "System.Math" "Abs")]
    let ctx : Context := ⟨⟨"HLSL", .empty, .ofList [(⟨"System.Math", "Abs"⟩, "abs")]⟩,
      t.byIdentifier, none⟩
    let a : Node := .name .unknown "a"
    let argument : Node := .assignment .unknown a "=" (.literal .unknown "1.0")
    let call : Node :=
      .invocation .unknown (.name .unknown "Magnitude") .unknown [⟨.unknown, argument⟩]
    let member : Node :=
      .memberAccess .unknown (.assignment .unknown a "=" call) ⟨.unknown, "x"⟩ "."
    let n : Node := .assignment .unknown member "+=" a
    let f : Expr := .call "abs" [.assign (.word "a") "=" (.word "1.0")]
    let e : Expr := .assign (.access (.assign (.word "a") "=" f) "." "x") "+=" (.word "a")
    let e' : Expr := .assign (.word "a") "=" (.assign (.access f "." "x") "+=" (.word "a"))
    ((ctx.expressionText call).outcome = .ok "abs(a = 1.0)" ∧ ctx.Worded .readable call ∧
      call.Proper ∧ call.AssignsToOperands ∧ ctx.exprSkeleton? call = some f ∧
      Expr.parse "abs(a = 1.0)" = some f) ∧
    (ctx.expressionText n).outcome = .ok "a = abs(a = 1.0).x += a" ∧ ctx.Worded .readable n ∧
      n.Proper ∧ ¬ n.AssignsToOperands ∧ ctx.exprSkeleton? n = some e ∧
      Expr.parse "a = abs(a = 1.0).x += a" = some e' ∧ e' ≠ e := by
  intro t ctx a argument call member n f e e'
  have ha : ctx.Worded .readable a := .name (by decide : IsReadableName "a")
  have hgets : IsUnmarked "=" := by decide
  have hwcall : ctx.Worded .readable call := by
    have hone : IsReadableLiteral "1.0" := by decide
    have hfunction : ∀ f ∈ ctx.functionFor? (.name .unknown "Magnitude"), IsReadableName f := by
      decide
    refine .invocation (fun f hf => hfunction f (functionFor?_of_calledFunction hf)) ?_
    exact List.forall_mem_singleton.2 (.assignment ha hgets (.literal hone))
  have hw : ctx.Worded .readable n := by
    have hadds : IsUnmarked "+=" := by decide
    have hx : IsReadableName "x" := by decide
    exact .assignment (.memberAccess (.assignment ha hgets hwcall) hx) hadds ha
  have hword {m : Node} (hm : m.operands = []) (hkind : m.kind ≠ .argument ∧
      m.kind ≠ .argumentList ∧ m.kind ≠ .initializer) : m.Proper :=
    .of_operands hkind (by simp [hm]) (by simp [hm])
  have hpa : a.Proper := hword rfl (by decide)
  have hassignment {left right : Node} {op : String} (hleft : left.Proper) (hright : right.Proper) :
      (Node.assignment .unknown left op right).Proper := by
    refine .of_operands (by simp [Node.kind]) (by simp [Node.operands]) ?_
    exact List.forall_mem_cons.2 ⟨hleft, List.forall_mem_singleton.2 hright⟩
  have hpcall : call.Proper := by
    refine .of_operands (by decide) ?_ (List.forall_mem_singleton.2 ?_)
    · simp [call, Node.operands]
    · exact hassignment hpa (hword rfl (by decide))
  have hp : n.Proper := by
    have hmember : member.Proper := by
      refine .of_operands (by decide) ?_ (List.forall_mem_singleton.2 (hassignment hpa hpcall))
      rintro m hm
      obtain ⟨-, rfl⟩ := Node.eq_of_mem_singleton_operand hm
      decide
    exact hassignment hmember hpa
  have hkept : call.AssignsToOperands := by
    rw [Node.assignsToOperands_of_arguments rfl, List.forall_mem_singleton]
    rw [Node.assignsToOperands_assignment_iff]
    have hleaf {m : Node} (hm : m.operands = []) : m.AssignsToOperands :=
      Node.assignsToOperands_iff.2 ⟨by simp [hm], by simp [hm]⟩
    exact ⟨⟨by decide, hleaf rfl⟩, hleaf rfl⟩
  have hlost : ¬ n.AssignsToOperands := by
    rw [Node.assignsToOperands_assignment_iff, Node.assignsToOperands_memberAccess_iff]
    exact fun h => h.1.2.1 rfl
  have hf : ctx.exprSkeleton? call = some f := rfl
  have he : ctx.exprSkeleton? n = some e := rfl
  have he' : Expr.parse "a = abs(a = 1.0).x += a" = some e' := rfl
  refine ⟨⟨rfl, hwcall, hpcall, hkept, hf, ?_⟩, rfl, hw, hp, hlost, he, he', ?_⟩
  · obtain ⟨g, g', hg, hg', -, hiff⟩ := grouping_survives_iff rfl hwcall hpcall
    obtain rfl := Option.some.inj (hf.symm.trans hg)
    rw [← hiff.2 hkept]
    exact hg'
  · intro hsame
    obtain ⟨g, g', hg, hg', -, hiff⟩ := grouping_survives_iff rfl hw hp
    obtain rfl := Option.some.inj (he.symm.trans hg)
    obtain rfl := Option.some.inj (he'.symm.trans hg')
    exact hlost (hiff.1 hsame)

end Context

end Shading
