import Shading.Proofs.Obstacle
import Shading.Task

/-!
# Operands

Where expressions stand: in one another, and in statements. A callee and a constructed type are
asked about and not written, so they stand nowhere.

At some of these places a lowering rejects an expression that comes out blank. At the others it
lets it pass, and a text follows in which an operand is missing.

* `Node.operands`, `Node.Part`: what stands in a node itself, and what stands in it at any depth.
* `Context.exists_ok_of_part`: what is lowered has all its parts lowered.
* `Context.statement_shows_iff`: **no operand of a statement comes out blank iff the tree has no
  blank operand at an unguarded place.**
* `Context.blank_first_value_passes`: a statement with a blank operand that is lowered all the same.
-/

namespace Shading

/-- The places at which an expression stands in another one or in a statement. -/
inductive Place where
  /-- Before the operator and the member of an access. -/
  | target
  | left
  | right
  /-- Among the arguments of a call or a construction, or of a list that is in neither. -/
  | argument
  /-- What a variable is given first. -/
  | firstValue
  /-- What a statement evaluates for its effect. -/
  | effect
  | returned
deriving DecidableEq, Inhabited, Repr

/-- Whether a lowering rejects what stands at the place and comes out blank. -/
def Place.isGuarded : Place → Bool
  | argument | effect | returned => true
  | target | left | right | firstValue => false

namespace Node

/-- The expressions that stand in a node, none of them inside another, with their places. -/
def operands : Node → List (Place × Node)
  | memberAccess _ target _ _ => [(.target, target)]
  | assignment _ left _ right => [(.left, left), (.right, right)]
  | argument arg => [(.argument, arg.value)]
  | argumentList _ args | invocation _ _ _ args | objectCreation _ _ _ args =>
    args.map fun arg => (.argument, arg.value)
  | initializer init => [(.firstValue, init.value)]
  | localDeclaration _ decl =>
    decl.declarators.flatMap fun v => v.init.toList.map fun init => (.firstValue, init.value)
  | expressionStatement _ value => [(.effect, value)]
  | returnStatement _ .absent => []
  | returnStatement _ value => [(.returned, value)]
  | _ => []

/-- A node in which one expression stands determines the place and the expression. -/
theorem eq_of_mem_singleton_operand {place place' : Place} {m m' : Node}
    (h : (place, m) ∈ [(place', m')]) : place = place' ∧ m = m' :=
  Prod.mk.inj (List.mem_singleton.1 h)

/-- A return of nothing has no operand; any other return has one. -/
theorem operands_returnStatement {value : Node} (h : value ≠ .absent) (loc : Location) :
    (returnStatement loc value).operands = [(.returned, value)] := by
  rw [operands]
  exact h

/-- `Part m n` says that `m` is `n`, or stands in it at some depth. -/
inductive Part : Node → Node → Prop where
  | whole {n : Node} : Part n n
  | operand {m k n : Node} {place : Place} : (place, k) ∈ n.operands → Part m k → Part m n

/-- What holds of all parts of a node holds of the node, and of all parts of its operands. -/
theorem forall_part_iff {Q : Node → Prop} {n : Node} :
    (∀ m, Part m n → Q m) ↔ Q n ∧ ∀ k ∈ n.operands, ∀ m, Part m k.2 → Q m := by
  constructor
  · intro h
    refine ⟨h n .whole, ?_⟩
    intro k hk m hm
    exact h m (.operand hk hm)
  · rintro ⟨hn, hoperands⟩ m hm
    cases hm with
    | whole => exact hn
    | operand hmem hm => exact hoperands _ hmem m hm

end Node

namespace Context

variable {ctx : Context} {n m k : Node} {place : Place}

/-- Each of the arguments that are lowered is lowered by itself, and shows. -/
theorem exists_ok_of_argument {args : List Argument} {es : List Target.Expr}
    (h : (ctx.lowerArguments args).outcome = .ok es)
    (hm : (place, m) ∈ args.map (fun arg => (Place.argument, arg.value))) :
    ∃ e, (ctx.lowerExpr m).outcome = .ok e ∧ e.text ≠ "" := by
  obtain ⟨a, ha, heq⟩ := List.mem_map.1 hm
  obtain ⟨rfl, rfl⟩ := Prod.mk.inj heq
  obtain ⟨e, -, he⟩ := exists_mem_of_forall₂ (outcome_lowerArguments_eq_ok.1 h).flip ha
  exact ⟨e, he⟩

/-- An expression that is lowered has its operands lowered, and those at guarded places show. -/
theorem exists_ok_of_operand {e : Target.Expr} (h : (ctx.lowerExpr n).outcome = .ok e)
    (hm : (place, m) ∈ n.operands) :
    ∃ e', (ctx.lowerExpr m).outcome = .ok e' ∧ (place.isGuarded = true → e'.text ≠ "") := by
  cases n with
  | memberAccess loc target member operator =>
    obtain ⟨t, ht, -⟩ := outcome_lowerExpr_memberAccess_eq_ok.1 h
    obtain ⟨rfl, rfl⟩ := Node.eq_of_mem_singleton_operand hm
    exact ⟨t, ht, nofun⟩
  | assignment loc left operator right =>
    obtain ⟨l, r, hl, hr, -⟩ := outcome_lowerExpr_assignment_eq_ok.1 h
    rcases List.mem_pair.1 hm with hm | hm
    · obtain ⟨rfl, rfl⟩ := Prod.mk.inj hm
      exact ⟨l, hl, nofun⟩
    · obtain ⟨rfl, rfl⟩ := Prod.mk.inj hm
      exact ⟨r, hr, nofun⟩
  | argument arg =>
    obtain ⟨he, hne⟩ := outcome_lowerArgument_eq_ok.1 h
    obtain ⟨rfl, rfl⟩ := Node.eq_of_mem_singleton_operand hm
    exact ⟨e, he, fun _ => hne⟩
  | argumentList loc args =>
    obtain ⟨es, hes, -⟩ := outcome_lowerExpr_argumentList_eq_ok.1 h
    obtain ⟨e', he', hne⟩ := exists_ok_of_argument hes hm
    exact ⟨e', he', fun _ => hne⟩
  | initializer init =>
    obtain ⟨loc, value⟩ := init
    obtain ⟨v, hv, -⟩ := outcome_lowerExpr_initializer_eq_ok.1 h
    obtain ⟨rfl, rfl⟩ := Node.eq_of_mem_singleton_operand hm
    exact ⟨v, hv, nofun⟩
  | invocation loc callee listLoc args =>
    obtain ⟨f, es, -, hes, -⟩ := outcome_lowerExpr_invocation_eq_ok.1 h
    obtain ⟨e', he', hne⟩ := exists_ok_of_argument hes hm
    exact ⟨e', he', fun _ => hne⟩
  | objectCreation loc type listLoc args =>
    obtain ⟨f, es, -, hes, -⟩ := outcome_lowerExpr_objectCreation_eq_ok.1 h
    obtain ⟨e', he', hne⟩ := exists_ok_of_argument hes hm
    exact ⟨e', he', fun _ => hne⟩
  | name | literal => cases hm
  | _ => exact absurd h (outcome_lowerExpr_ne_ok rfl e)

/-- What is lowered as an expression has all its parts lowered. -/
theorem exists_ok_of_part (hk : k.Part n) (h : ∃ e, (ctx.lowerExpr n).outcome = .ok e) :
    ∃ e, (ctx.lowerExpr k).outcome = .ok e := by
  induction hk with
  | whole => exact h
  | operand hmem _ ih =>
    obtain ⟨e, he⟩ := h
    obtain ⟨e', he', -⟩ := exists_ok_of_operand he hmem
    exact ih ⟨e', he'⟩

/-- A statement that is lowered has its operands lowered, and those at guarded places show. -/
theorem StatementLowering.exists_ok_of_operand {s : Target.Statement}
    (h : StatementLowering ctx n s) (hm : (place, m) ∈ n.operands) :
    ∃ e, (ctx.lowerExpr m).outcome = .ok e ∧ (place.isGuarded = true → e.text ≠ "") := by
  cases h with
  | declaration htoken => cases hm
  | initialization htoken he =>
    obtain ⟨rfl, rfl⟩ := Node.eq_of_mem_singleton_operand hm
    exact ⟨_, he, nofun⟩
  | effect he hne =>
    obtain ⟨rfl, rfl⟩ := Node.eq_of_mem_singleton_operand hm
    exact ⟨_, he, fun _ => hne⟩
  | returnNothing => cases hm
  | @returnValue loc value e he hne =>
    -- a return of nothing has no operand, and nothing is not lowered
    have hvalue : value ≠ .absent := by
      rintro rfl
      cases he
    rw [Node.operands_returnStatement hvalue] at hm
    obtain ⟨rfl, rfl⟩ := Node.eq_of_mem_singleton_operand hm
    exact ⟨e, he, fun _ => hne⟩

theorem outcome_perform_statement_eq_ok {indent : String} {output : Task.Output} :
    (ctx.perform (.statement indent n)).outcome = .ok output ↔
      ∃ s, (ctx.lowerStatement n).outcome = .ok s ∧ output = .text (s.line indent) := by
  simp only [perform, Traced.outcome_bind_eq_ok, Traced.outcome_pure, Except.ok.injEq,
    eq_comm (b := output)]

/-- An operand at any depth of a statement that is lowered is lowered. It comes out blank exactly
when the tree says so, and at a guarded place it does not. -/
theorem exists_ok_of_part_operand {s : Target.Statement}
    (h : (ctx.lowerStatement n).outcome = .ok s) (hk : k.Part n) (hm : (place, m) ∈ k.operands) :
    ∃ e, (ctx.lowerExpr m).outcome = .ok e ∧ (e.text = "" ↔ m.blank = true) ∧
      (place.isGuarded = true → e.text ≠ "") := by
  have hs : StatementLowering ctx n s := .of_lowerStatement h
  have hoperand : ∃ e, (ctx.lowerExpr m).outcome = .ok e ∧
      (place.isGuarded = true → e.text ≠ "") := by
    cases hk with
    | whole => exact hs.exists_ok_of_operand hm
    | operand hmem hk =>
      -- below the statement itself there are expressions only
      obtain ⟨e, he, -⟩ := hs.exists_ok_of_operand hmem
      obtain ⟨e', he'⟩ := exists_ok_of_part hk ⟨e, he⟩
      exact exists_ok_of_operand he' hm
  obtain ⟨e, he, hguard⟩ := hoperand
  exact ⟨e, he, text_eq_empty_iff_blank he, hguard⟩

variable (ctx) in
/-- Everything that stands in `n` is lowered and shows. -/
def ShowsThroughout (n : Node) : Prop :=
  ∀ k place m, Node.Part k n → (place, m) ∈ k.operands →
    ∃ e, (ctx.lowerExpr m).outcome = .ok e ∧ e.text ≠ ""

/-- **No operand of a statement comes out blank iff the tree has no blank operand at an unguarded
place.** What stands at a guarded place always shows in a statement that is lowered. -/
theorem statement_shows_iff {indent : String} {output : Task.Output}
    (h : (ctx.perform (.statement indent n)).outcome = .ok output) :
    (∀ k place m, Node.Part k n → (place, m) ∈ k.operands → place.isGuarded = true →
      ∃ e, (ctx.lowerExpr m).outcome = .ok e ∧ e.text ≠ "") ∧
    (ctx.ShowsThroughout n ↔ ∀ k place m, Node.Part k n → (place, m) ∈ k.operands →
      place.isGuarded = false → m.blank = false) := by
  obtain ⟨s, hs, -⟩ := outcome_perform_statement_eq_ok.1 h
  refine ⟨fun k place m hk hm hguard => ?_, fun hall k place m hk hm _ => ?_,
    fun hall k place m hk hm => ?_⟩
  · obtain ⟨e, he, -, hshows⟩ := exists_ok_of_part_operand hs hk hm
    exact ⟨e, he, hshows hguard⟩
  · -- what shows is not blank, since both are told from the same text
    obtain ⟨e, he, hblank, -⟩ := exists_ok_of_part_operand hs hk hm
    obtain ⟨e', he', hne⟩ := hall k place m hk hm
    obtain rfl : e = e' := Except.ok.inj (he.symm.trans he')
    exact Bool.eq_false_iff.2 fun hb => hne (hblank.2 hb)
  · obtain ⟨e, he, hblank, hshows⟩ := exists_ok_of_part_operand hs hk hm
    refine ⟨e, he, ?_⟩
    cases hguard : place.isGuarded with
    | true => exact hshows hguard
    | false =>
      have hnot : m.blank = false := hall k place m hk hm hguard
      intro hempty
      rw [hblank.1 hempty] at hnot
      cases hnot

/-- An assignment of names shows throughout: neither of its sides is blank. -/
theorem assignment_of_names_shows :
    let sides : Node := .assignment .unknown (.name .unknown "x") "=" (.name .unknown "a")
    (floatOnly.perform (.statement "  " (.expressionStatement .unknown sides))).outcome =
        .ok (.text "  x = a;") ∧
      floatOnly.ShowsThroughout (.expressionStatement .unknown sides) := by
  intro sides
  have hok : (floatOnly.perform (.statement "  " (.expressionStatement .unknown sides))).outcome =
      .ok (.text "  x = a;") := rfl
  refine ⟨hok, (statement_shows_iff hok).2.2 ?_⟩
  intro k place m hk hm hguard
  rcases hk with _ | ⟨hmem, hk⟩
  · -- the place in the statement itself is guarded
    obtain ⟨rfl, rfl⟩ := Node.eq_of_mem_singleton_operand hm
    cases hguard
  · obtain ⟨rfl, rfl⟩ := Node.eq_of_mem_singleton_operand hmem
    rcases hk with _ | ⟨hmem, hk⟩
    · rcases List.mem_pair.1 hm with hm | hm <;> obtain ⟨rfl, rfl⟩ := Prod.mk.inj hm <;> rfl
    · -- and in a name nothing stands
      rcases List.mem_pair.1 hmem with h | h
      all_goals
        obtain ⟨rfl, rfl⟩ := Prod.mk.inj h
        cases hk with
        | whole => cases hm
        | operand hmem _ => cases hmem

/-- A variable whose first value is an empty literal is declared all the same, and its line lacks
the value. -/
theorem blank_first_value_passes :
    let blank : Node := .literal .unknown ""
    let statement : Node := .localDeclaration .unknown
      ⟨.unknown, ⟨"float", none⟩, [⟨.unknown, "x", some ⟨.unknown, blank⟩⟩]⟩
    (floatOnly.perform (.statement "" statement)).outcome = .ok (.text "float x = ;") ∧
      (Place.firstValue, blank) ∈ statement.operands ∧
      (floatOnly.expressionText blank).outcome = .ok "" ∧
      ¬ floatOnly.ShowsThroughout statement := by
  intro blank statement
  refine ⟨rfl, List.mem_singleton.2 rfl, rfl, fun hshows => ?_⟩
  obtain ⟨e, he, hne⟩ := hshows statement .firstValue blank .whole (List.mem_singleton.2 rfl)
  obtain rfl := Except.ok.inj he
  exact hne rfl

end Context

end Shading
