import Shading.Proofs.Legible

/-!
# Parsing expressions

A parser for the texts of expressions. It goes over a text once, from left to right, and keeps the
calls that are open and, in each of them, the arguments that are complete and the assignments whose
right sides are still to come. Calls and members bind tightest, assignments group to the right, and
commas separate arguments; in a number a dot is a point.

* `pieces`: a text as marks and the chunks between them.
* `Parse.step`: what one piece does; `Expr.parse`: what a whole text is read as.
* `Ordered`: the expressions that need no parentheses but those of calls.
* `Expr.text_of_parse`, `Expr.ordered_of_parse`: **whatever a text is read as is written as that
  text and needs no parentheses.**
-/

namespace Shading.Target

/-- What a text consists of: marks, and the chunks between them. -/
inductive Piece where
  | chunk (w : List Char)
  | space
  | comma
  | opening
  | closing
deriving DecidableEq

/-- A piece as characters. -/
@[simp] def Piece.chars : Piece → List Char
  | chunk w => w
  | space => [' ']
  | comma => [',']
  | opening => ['(']
  | closing => [')']

/-- The mark that a character is. -/
def mark? : Char → Option Piece
  | ' ' => some .space
  | ',' => some .comma
  | '(' => some .opening
  | ')' => some .closing
  | _ => none

/-- The pieces of a text. Between two marks there is one chunk at most. -/
def pieces : List Char → List Piece
  | [] => []
  | c :: cs =>
    match mark? c, pieces cs with
    | some p, ps => p :: ps
    | none, .chunk w :: ps => .chunk (c :: w) :: ps
    | none, ps => .chunk [c] :: ps

theorem chars_of_mark? {c : Char} {p : Piece} (h : mark? c = some p) : p.chars = [c] := by
  unfold mark? at h
  split at h <;> cases h <;> rfl

/-- The pieces of a text are the whole text. -/
theorem flatMap_chars_pieces (cs : List Char) : (pieces cs).flatMap Piece.chars = cs := by
  induction cs with
  | nil => rfl
  | cons c cs ih =>
    unfold pieces
    split
    · rename_i hp
      rw [List.flatMap_cons, chars_of_mark? hp, ih]
      rfl
    · rename_i w ps hp hps
      rw [hps, List.flatMap_cons] at ih
      rw [List.flatMap_cons, ← ih]
      rfl
    · rw [List.flatMap_cons, ih]
      rfl

/-- The texts between the dots of a chunk. -/
def names (w : List Char) : List String :=
  (w.splitOn '.').map String.ofList

/-- The operand that a chunk is: a number, or a word and its members. -/
def operandOf (w : List Char) : Expr :=
  if beginsNumber (String.ofList w) then .word (String.ofList w)
  else
    match names w with
    | [] => .word ""
    | v :: ms => (Expr.word v).members ms

/-- The members that a chunk behind a call consists of. -/
def membersOf? (w : List Char) : Option (List String) :=
  match names w with
  | "" :: ms => some ms
  | _ => none

/-- Assignments whose right sides are to come, the last one first. -/
abbrev Pending := List (Expr × String)

/-- The expression that the assignments become with the right side `r`. -/
def assigned : Pending → Expr → Expr
  | [], r => r
  | (l, op) :: ps, r => assigned ps (.assign l op r)

/-- Where in an item the parser is. -/
inductive Mode where
  /-- An operand has to follow. -/
  | start (ps : Pending)
  /-- Behind an operand. -/
  | operand (ps : Pending) (l : Expr)
  /-- Behind an operand and a space: an operator has to follow. -/
  | space (ps : Pending) (l : Expr)
  /-- Behind an operator: a space has to follow. -/
  | operator (ps : Pending) (l : Expr) (op : String)
  /-- Behind an argument and its comma: a space has to follow. -/
  | comma (arg : Expr)

/-- A call whose arguments are being read, and what had been read before it. -/
structure OpenCall where
  args : List Expr
  pending : Pending
  function : String

/-- What has been read of a text: the open calls, the innermost first, the arguments that are
complete, and the item that is being read. -/
structure Parse where
  calls : List OpenCall
  args : List Expr
  mode : Mode

namespace Parse

/-- At the beginning of a text. -/
def initial : Parse :=
  ⟨[], [], .start []⟩

/-- What becomes of a parse with the next piece. -/
def step : Parse → Piece → Option Parse
  | ⟨cs, args, .start ps⟩, .chunk w => some ⟨cs, args, .operand ps (operandOf w)⟩
  | ⟨c :: cs, [], .start []⟩, .closing =>
    some ⟨cs, c.args, .operand c.pending (.call c.function [])⟩
  | ⟨cs, args, .operand ps l⟩, .chunk w =>
    (membersOf? w).map fun ms => ⟨cs, args, .operand ps (l.members ms)⟩
  | ⟨cs, args, .operand ps (.word f)⟩, .opening => some ⟨⟨args, ps, f⟩ :: cs, [], .start []⟩
  | ⟨cs, args, .operand ps l⟩, .space => some ⟨cs, args, .space ps l⟩
  | ⟨c :: cs, args, .operand ps l⟩, .comma => some ⟨c :: cs, args, .comma (assigned ps l)⟩
  | ⟨c :: cs, args, .operand ps l⟩, .closing =>
    some ⟨cs, c.args, .operand c.pending (.call c.function (args ++ [assigned ps l]))⟩
  | ⟨cs, args, .space ps l⟩, .chunk w => some ⟨cs, args, .operator ps l (String.ofList w)⟩
  | ⟨cs, args, .operator ps l op⟩, .space => some ⟨cs, args, .start ((l, op) :: ps)⟩
  | ⟨cs, args, .comma arg⟩, .space => some ⟨cs, args ++ [arg], .start []⟩
  | _, _ => none

/-- What becomes of a parse with several pieces. -/
def run (s : Parse) (ps : List Piece) : Option Parse :=
  ps.foldlM step s

@[simp] theorem run_nil (s : Parse) : s.run [] = some s := rfl

@[simp] theorem run_cons (s : Parse) (p : Piece) (ps : List Piece) :
    s.run (p :: ps) = (s.step p).bind fun s' => s'.run ps := rfl

/-- The steps of a parse by name. -/
inductive Step : Parse → Piece → Parse → Prop where
  | operand {cs args ps} (w : List Char) :
    Step ⟨cs, args, .start ps⟩ (.chunk w) ⟨cs, args, .operand ps (operandOf w)⟩
  | endOfNothing (c : OpenCall) {cs} :
    Step ⟨c :: cs, [], .start []⟩ .closing ⟨cs, c.args, .operand c.pending (.call c.function [])⟩
  | members {cs args ps l w ms} (h : membersOf? w = some ms) :
    Step ⟨cs, args, .operand ps l⟩ (.chunk w) ⟨cs, args, .operand ps (l.members ms)⟩
  | call {cs args ps} (f : String) :
    Step ⟨cs, args, .operand ps (.word f)⟩ .opening ⟨⟨args, ps, f⟩ :: cs, [], .start []⟩
  | endOfOperand {cs args ps l} :
    Step ⟨cs, args, .operand ps l⟩ .space ⟨cs, args, .space ps l⟩
  | endOfArgument {c cs args ps l} :
    Step ⟨c :: cs, args, .operand ps l⟩ .comma ⟨c :: cs, args, .comma (assigned ps l)⟩
  | endOfCall (c : OpenCall) {cs args ps l} :
    Step ⟨c :: cs, args, .operand ps l⟩ .closing
      ⟨cs, c.args, .operand c.pending (.call c.function (args ++ [assigned ps l]))⟩
  | operator {cs args ps l} (w : List Char) :
    Step ⟨cs, args, .space ps l⟩ (.chunk w) ⟨cs, args, .operator ps l (String.ofList w)⟩
  | rightSide {cs args ps l op} :
    Step ⟨cs, args, .operator ps l op⟩ .space ⟨cs, args, .start ((l, op) :: ps)⟩
  | nextArgument {cs args arg} :
    Step ⟨cs, args, .comma arg⟩ .space ⟨cs, args ++ [arg], .start []⟩

theorem Step.of_step {s s' : Parse} {p : Piece} (h : s.step p = some s') : Step s p s' := by
  unfold step at h
  split at h
  case h_3 =>
    obtain ⟨ms, hms, rfl⟩ := Option.map_eq_some_iff.1 h
    exact .members hms
  case h_11 => cases h
  all_goals
    obtain rfl := Option.some.inj h
    constructor

/-- The expression that has been read, if the text may end here. -/
def result? : Parse → Option Expr
  | ⟨[], [], .operand ps l⟩ => some (assigned ps l)
  | _ => none

end Parse

/-- The expression that a text is read as. -/
def Expr.parse (s : String) : Option Expr :=
  (Parse.initial.run (pieces s.toList)).bind Parse.result?

/-- A chunk is what is between its dots. -/
theorem eq_of_names {w : List Char} {v : String} {ms : List String} (h : names w = v :: ms) :
    w = v.toList ++ dotted ms := by
  have glued (c : List Char) (cs : List (List Char)) :
      ['.'].intercalate (c :: cs) = c ++ dotted (cs.map String.ofList) := by
    induction cs generalizing c with
    | nil => simp
    | cons c' cs ih => simp [List.intercalate_cons_cons, ih]
  obtain ⟨c, cs, hsplit, rfl, rfl⟩ : ∃ c cs, w.splitOn '.' = c :: cs ∧ String.ofList c = v ∧
      cs.map String.ofList = ms := List.map_eq_cons_iff.1 h
  have hw : ['.'].intercalate (w.splitOn '.') = w := List.intercalate_splitOn '.'
  rw [← hw, hsplit, glued, String.toList_ofList]

/-- A path is made of its names. -/
theorem names_path {v : String} {ms : List String} (hv : '.' ∉ v.toList)
    (hms : ∀ m ∈ ms, '.' ∉ m.toList) : names (v.toList ++ dotted ms) = v :: ms := by
  induction ms generalizing v with
  | nil => simp [names, List.splitOn_eq_singleton hv]
  | cons m ms ih =>
    rw [List.forall_mem_cons] at hms
    have hrest := ih hms.1 hms.2
    rw [names] at hrest
    rw [dotted_cons, names, List.splitOn_append_cons_self_of_not_mem hv, List.map_cons, hrest,
      String.ofList_toList]

/-- An operand is written as the chunk that it is read from. -/
@[simp] theorem chars_operandOf (w : List Char) : (operandOf w).chars = w := by
  unfold operandOf
  split
  · simp
  · split
    · rename_i hnames
      simp [names] at hnames
    · rename_i v ms hnames
      rw [Expr.chars_members, Expr.chars_word, ← eq_of_names hnames]

theorem eq_of_membersOf? {w : List Char} {ms : List String} (h : membersOf? w = some ms) :
    w = dotted ms := by
  unfold membersOf? at h
  split at h
  · rename_i ms' hnames
    obtain rfl := Option.some.inj h
    simpa using eq_of_names hnames
  · cases h

/-- Arguments with the commas behind them. -/
def argsChars (args : List Expr) : List Char :=
  args.flatMap fun a => a.chars ++ [',', ' ']

/-- Assignments without their right sides. -/
@[simp] def pendingChars : Pending → List Char
  | [] => []
  | (l, op) :: ps => pendingChars ps ++ (l.chars ++ ' ' :: (op.toList ++ [' ']))

/-- Calls without the arguments that are being read. -/
@[simp] def callsChars : List OpenCall → List Char
  | [] => []
  | c :: cs =>
    callsChars cs ++ (argsChars c.args ++ (pendingChars c.pending ++ (c.function.toList ++ ['('])))

@[simp] theorem chars_assigned (ps : Pending) (r : Expr) :
    (assigned ps r).chars = pendingChars ps ++ r.chars := by
  induction ps generalizing r with
  | nil => rfl
  | cons p ps ih =>
    obtain ⟨l, op⟩ := p
    rw [assigned, ih, pendingChars]
    simp

theorem toList_commaSeparated_snoc (args : List Expr) (a : Expr) :
    (commaSeparated ((args ++ [a]).map Expr.text)).toList = argsChars args ++ a.chars := by
  induction args with
  | nil => simp [commaSeparated, argsChars, Expr.chars]
  | cons b args ih =>
    rw [List.cons_append, List.map_cons, toList_commaSeparated_cons]
    cases args with
    | nil => simp [argsChars, Expr.chars]
    | cons c args =>
      rw [List.cons_append, List.map_cons, toList_commaSeparated_cons] at ih
      rw [List.cons_append, List.map_cons, following_cons, ih]
      simp [argsChars, Expr.chars]

/-- What has been read of an item. -/
@[simp] def Mode.chars : Mode → List Char
  | start ps => pendingChars ps
  | operand ps l => pendingChars ps ++ l.chars
  | space ps l => pendingChars ps ++ (l.chars ++ [' '])
  | operator ps l op => pendingChars ps ++ (l.chars ++ ' ' :: op.toList)
  | comma arg => arg.chars ++ [',']

namespace Parse

/-- What has been read, as characters. -/
def chars (s : Parse) : List Char :=
  callsChars s.calls ++ (argsChars s.args ++ s.mode.chars)

/-- A piece that is read is added to what has been read. -/
theorem chars_step {s s' : Parse} {p : Piece} (h : s.step p = some s') :
    s'.chars = s.chars ++ p.chars := by
  cases Step.of_step h with
  | operand w => simp [chars]
  | endOfNothing c => simp [chars, argsChars, commaSeparated]
  | members hms => simp [chars, eq_of_membersOf? hms]
  | call f => simp [chars, argsChars]
  | endOfOperand => simp [chars]
  | endOfArgument => simp [chars]
  | endOfCall c =>
    simp only [chars, Mode.chars, Expr.chars_call, toList_commaSeparated_snoc]
    simp
  | operator w => simp [chars]
  | rightSide => simp [chars]
  | nextArgument => simp [chars, argsChars]

theorem chars_run {s s' : Parse} {ps : List Piece} (h : s.run ps = some s') :
    s'.chars = s.chars ++ ps.flatMap Piece.chars := by
  induction ps generalizing s with
  | nil =>
    obtain rfl := Option.some.inj h
    simp
  | cons p ps ih =>
    obtain ⟨s₁, hstep, hrun⟩ := Option.bind_eq_some_iff.1 h
    rw [ih hrun, chars_step hstep, List.flatMap_cons, List.append_assoc]

end Parse

/-- **What a text is read as is written as that text.** -/
theorem Expr.text_of_parse {s : String} {e : Expr} (h : parse s = some e) : e.text = s := by
  obtain ⟨s', hrun, hresult⟩ := Option.bind_eq_some_iff.1 h
  have hchars := Parse.chars_run hrun
  rw [flatMap_chars_pieces] at hchars
  unfold Parse.result? at hresult
  split at hresult
  · rename_i ps l
    obtain rfl := Option.some.inj hresult
    refine String.toList_injective ?_
    have hwritten : (assigned ps l).chars = s.toList := by
      simpa [Parse.chars, Parse.initial, argsChars] using hchars
    exact hwritten
  · cases hresult

/-- The expressions that need no parentheses but those of calls. -/
inductive Ordered : Binding → Expr → Prop where
  | word {w : String} : Ordered .tight (.word w)
  | access {t : Expr} {op m : String} : Ordered .tight t → Ordered .tight (.access t op m)
  | call {f : String} {args : List Expr} :
    (∀ a ∈ args, Ordered .loose a) → Ordered .tight (.call f args)
  | loosen {e : Expr} : Ordered .tight e → Ordered .loose e
  | assign {l r : Expr} {op : String} :
    Ordered .tight l → Ordered .loose r → Ordered .loose (.assign l op r)

theorem ordered_access_iff {t : Expr} {op m : String} :
    Ordered .loose (.access t op m) ↔ Ordered .tight t := by
  refine ⟨fun h => ?_, fun h => .loosen h.access⟩
  cases h with
  | loosen h =>
    cases h with
    | access ht => exact ht

theorem ordered_assign_iff {l r : Expr} {op : String} :
    Ordered .loose (.assign l op r) ↔ Ordered .tight l ∧ Ordered .loose r := by
  refine ⟨fun h => ?_, fun h => .assign h.1 h.2⟩
  cases h with
  | loosen h => cases h
  | assign hl hr => exact ⟨hl, hr⟩

theorem ordered_call_iff {f : String} {args : List Expr} :
    Ordered .loose (.call f args) ↔ ∀ a ∈ args, Ordered .loose a := by
  refine ⟨fun h => ?_, fun h => .loosen (.call h)⟩
  cases h with
  | loosen h =>
    cases h with
    | call hargs => exact hargs

/-- Only an assignment is no operand. -/
theorem Ordered.tight_of_ne_assign {e : Expr} (h : Ordered .loose e)
    (he : ∀ l op r, e ≠ .assign l op r) : Ordered .tight e := by
  cases h with
  | loosen h => exact h
  | assign _ _ => exact absurd rfl (he _ _ _)

theorem Ordered.members {e : Expr} (h : Ordered .tight e) (ms : List String) :
    Ordered .tight (e.members ms) := by
  induction ms generalizing e with
  | nil => exact h
  | cons m ms ih => exact ih h.access

theorem ordered_operandOf (w : List Char) : Ordered .tight (operandOf w) := by
  unfold operandOf
  split
  · exact .word
  · split
    · exact .word
    · exact Ordered.word.members _

/-- The left sides of assignments are operands. -/
def OrderedPending (ps : Pending) : Prop :=
  ∀ p ∈ ps, Ordered .tight p.1

theorem OrderedPending.cons {ps : Pending} {l : Expr} {op : String} (hl : Ordered .tight l)
    (h : OrderedPending ps) : OrderedPending ((l, op) :: ps) :=
  List.forall_mem_cons.2 ⟨hl, h⟩

/-- Assignments group to the right. -/
theorem OrderedPending.assigned {ps : Pending} {r : Expr} (h : OrderedPending ps)
    (hr : Ordered .loose r) : Ordered .loose (assigned ps r) := by
  induction ps generalizing r with
  | nil => exact hr
  | cons p ps ih =>
    obtain ⟨hl, hps⟩ := List.forall_mem_cons.1 h
    exact ih hps (.assign hl hr)

/-- Nothing in an item that is being read needs parentheses. -/
def Mode.Ordered : Mode → Prop
  | start ps => OrderedPending ps
  | operand ps l | space ps l | operator ps l _ => OrderedPending ps ∧ Target.Ordered .tight l
  | comma arg => Target.Ordered .loose arg

/-- Nothing that is kept for an open call needs parentheses. -/
structure OpenCall.Ordered (c : OpenCall) : Prop where
  args : ∀ a ∈ c.args, Target.Ordered .loose a
  pending : OrderedPending c.pending

namespace Parse

/-- Nothing that has been read needs parentheses. -/
structure Ordered (s : Parse) : Prop where
  calls : ∀ c ∈ s.calls, c.Ordered
  args : ∀ a ∈ s.args, Target.Ordered .loose a
  mode : s.mode.Ordered

theorem ordered_initial : initial.Ordered :=
  ⟨nofun, nofun, nofun⟩

/-- A piece leaves nothing that needs parentheses. -/
theorem Ordered.step {s s' : Parse} {p : Piece} (hs : s.Ordered) (h : s.step p = some s') :
    s'.Ordered := by
  obtain ⟨hcalls, hargs, hmode⟩ := hs
  cases Step.of_step h with
  | operand w => exact ⟨hcalls, hargs, hmode, ordered_operandOf w⟩
  | endOfNothing c =>
    obtain ⟨hc, hcs⟩ := List.forall_mem_cons.1 hcalls
    exact ⟨hcs, hc.args, hc.pending, .call nofun⟩
  | members => exact ⟨hcalls, hargs, hmode.1, hmode.2.members _⟩
  | call f => exact ⟨List.forall_mem_cons.2 ⟨⟨hargs, hmode.1⟩, hcalls⟩, nofun, nofun⟩
  | endOfOperand => exact ⟨hcalls, hargs, hmode⟩
  | endOfArgument => exact ⟨hcalls, hargs, hmode.1.assigned (.loosen hmode.2)⟩
  | endOfCall c =>
    obtain ⟨hc, hcs⟩ := List.forall_mem_cons.1 hcalls
    have hlast := hmode.1.assigned (.loosen hmode.2)
    have hall := List.forall_mem_append.2 ⟨hargs, List.forall_mem_singleton.2 hlast⟩
    exact ⟨hcs, hc.args, hc.pending, .call hall⟩
  | operator w => exact ⟨hcalls, hargs, hmode⟩
  | rightSide => exact ⟨hcalls, hargs, hmode.1.cons hmode.2⟩
  | nextArgument =>
    have hall := List.forall_mem_append.2 ⟨hargs, List.forall_mem_singleton.2 hmode⟩
    exact ⟨hcalls, hall, nofun⟩

theorem Ordered.run {s s' : Parse} {ps : List Piece} (hs : s.Ordered) (h : s.run ps = some s') :
    s'.Ordered := by
  induction ps generalizing s with
  | nil =>
    obtain rfl := Option.some.inj h
    exact hs
  | cons p ps ih =>
    obtain ⟨s₁, hstep, hrun⟩ := Option.bind_eq_some_iff.1 h
    exact ih (hs.step hstep) hrun

end Parse

/-- **What a text is read as needs no parentheses.** -/
theorem Expr.ordered_of_parse {s : String} {e : Expr} (h : parse s = some e) :
    Ordered .loose e := by
  obtain ⟨s', hrun, hresult⟩ := Option.bind_eq_some_iff.1 h
  have hs' : s'.Ordered := Parse.ordered_initial.run hrun
  unfold Parse.result? at hresult
  split at hresult
  · obtain rfl := Option.some.inj hresult
    exact hs'.mode.1.assigned (.loosen hs'.mode.2)
  · cases hresult

example : Expr.parse "f(a = b = c.x, g(), 1.0).y = 2" =
    some (.assign (.access (.call "f" [.assign (.word "a") "=" (.assign (.word "b") "="
      (.access (.word "c") "." "x")), .call "g" [], .word "1.0"]) "." "y") "=" (.word "2")) := by
  rfl

end Shading.Target
