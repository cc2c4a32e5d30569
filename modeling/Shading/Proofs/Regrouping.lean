import Shading.Proofs.Parsing

/-!
# What a reader makes of an expression

An expression whose words can be told apart is always read as an expression with the same text. The
assignments in it group to the right, however they were grouped, and a member belongs to the operand
before it, so that an assignment that is assigned to or asked for a member comes out as another one.

* `Expr.Readable`: expressions whose words can be told apart.
* `Expr.spine`, `Expr.regrouped`: an expression as its text is grouped.
* `Expr.parse_text`: **a text is read as its expression regrouped.**
* `Expr.parse_text_iff`: **it is read as the expression itself iff this needs no parentheses.**
-/

namespace Shading.Target

/-- A text that shows and has no marks in it. -/
structure IsUnmarked (w : String) : Prop where
  ne_empty : w ≠ ""
  unmarked : ∀ c ∈ w.toList, mark? c = none

instance (w : String) : Decidable (IsUnmarked w) :=
  decidable_of_iff (w ≠ "" ∧ w.toList.any (fun c => (mark? c).isSome) = false)
    ⟨fun ⟨h₁, h₂⟩ => ⟨h₁, by simpa using h₂⟩, fun ⟨h₁, h₂⟩ => ⟨h₁, by simpa using h₂⟩⟩

/-- A name that can be told from a number and from a path. -/
structure IsReadableName (w : String) : Prop extends IsUnmarked w where
  no_dot : '.' ∉ w.toList
  no_number : beginsNumber w = false

instance (w : String) : Decidable (IsReadableName w) :=
  decidable_of_iff (IsUnmarked w ∧ '.' ∉ w.toList ∧ beginsNumber w = false)
    ⟨fun ⟨h₁, h₂, h₃⟩ => ⟨h₁, h₂, h₃⟩, fun ⟨h₁, h₂, h₃⟩ => ⟨h₁, h₂, h₃⟩⟩

/-- A literal that can be told from a path. -/
structure IsReadableLiteral (w : String) : Prop extends IsUnmarked w where
  number : '.' ∈ w.toList → beginsNumber w = true

instance (w : String) : Decidable (IsReadableLiteral w) :=
  decidable_of_iff (IsUnmarked w ∧ ('.' ∈ w.toList → beginsNumber w = true))
    ⟨fun ⟨h₁, h₂⟩ => ⟨h₁, h₂⟩, fun ⟨h₁, h₂⟩ => ⟨h₁, h₂⟩⟩

theorem IsReadableName.isReadableLiteral {w : String} (h : IsReadableName w) :
    IsReadableLiteral w :=
  ⟨h.toIsUnmarked, fun hdot => absurd hdot h.no_dot⟩

/-- Expressions whose words can be told apart. -/
inductive Expr.Readable : Expr → Prop where
  | word {w : String} : IsReadableLiteral w → Readable (.word w)
  | access {t : Expr} {m : String} :
    Readable t → (∀ w, t = .word w → IsReadableName w) → IsReadableName m →
    Readable (.access t "." m)
  | assign {l r : Expr} {op : String} :
    Readable l → IsUnmarked op → Readable r → Readable (.assign l op r)
  | call {f : String} {args : List Expr} :
    IsReadableName f → (∀ a ∈ args, Readable a) → Readable (.call f args)

namespace Expr

/-- The member `m` of what is written as `l`; in a number the dot is a point. -/
def dot (l : Expr) (op m : String) : Expr :=
  match l with
  | word w => if beginsNumber w then word (w ++ op ++ m) else access (word w) op m
  | l => access l op m

/-- The member of a member, and so on, of what is written as `l`. -/
def dots (l : Expr) (ms : List String) : Expr :=
  ms.foldl (fun l m => l.dot "." m) l

@[simp] theorem dots_nil (l : Expr) : l.dots [] = l := rfl

@[simp] theorem dots_cons (l : Expr) (m : String) (ms : List String) :
    l.dots (m :: ms) = (l.dot "." m).dots ms := rfl

mutual

/-- The assignments that the text of an expression begins with, and the operand behind them. -/
def spine : Expr → Pending × Expr
  | word w => ([], word w)
  | access t op m => (t.spine.1, t.spine.2.dot op m)
  | assign l op r => (r.spine.1 ++ (l.spine.2, op) :: l.spine.1, r.spine.2)
  | call f args => ([], call f (regroupedAll args))
  | clause value => ([], clause value)
  | sequence items => ([], sequence items)
termination_by structural e => e

/-- Several expressions as their texts are grouped. -/
def regroupedAll : List Expr → List Expr
  | [] => []
  | e :: es => assigned e.spine.1 e.spine.2 :: regroupedAll es
termination_by structural es => es

end

/-- An expression as its text is grouped. -/
def regrouped (e : Expr) : Expr :=
  assigned e.spine.1 e.spine.2

theorem regroupedAll_eq_map (es : List Expr) : regroupedAll es = es.map regrouped := by
  induction es with
  | nil => rfl
  | cons e es ih => rw [regroupedAll, ih, List.map_cons, regrouped]

/-- What is not a number takes members. -/
theorem dots_eq_members {l : Expr} (h : ∀ w, l = word w → beginsNumber w = false)
    (ms : List String) : l.dots ms = l.members ms := by
  induction ms generalizing l with
  | nil => rfl
  | cons m ms ih =>
    have hdot : l.dot "." m = access l "." m := by
      unfold dot
      split
      · rename_i w
        rw [h w rfl, if_neg Bool.false_ne_true]
      · rfl
    have hrest : (access l "." m).dots ms = (access l "." m).members ms := ih nofun
    rw [dots_cons, hdot, hrest]
    rfl

/-- A number takes the points of what follows. -/
theorem dots_of_number {w : String} (hw : beginsNumber w = true) (ms : List String) :
    (word w).dots ms = word (String.ofList (w.toList ++ dotted ms)) := by
  induction ms generalizing w with
  | nil => simp
  | cons m ms ih =>
    have hnumber : beginsNumber (w ++ "." ++ m) = true := by
      obtain ⟨c, cs, hc⟩ : ∃ c cs, w.toList = c :: cs := by
        cases h : w.toList with
        | nil => simp [beginsNumber, h] at hw
        | cons c cs => exact ⟨c, cs, rfl⟩
      simp only [beginsNumber, String.toList_append, hc, List.cons_append, List.head?_cons] at hw ⊢
      exact hw
    rw [dots_cons, dot, if_pos hw, ih hnumber]
    simp

end Expr

/-- A chunk that begins with a word is read as the word with its members. -/
theorem operandOf_append_dotted {w : String} (hw : IsReadableLiteral w) {ms : List String}
    (hms : ∀ m ∈ ms, IsReadableName m) :
    operandOf (w.toList ++ dotted ms) = (Expr.word w).dots ms := by
  obtain ⟨c, cs, hc⟩ : ∃ c cs, w.toList = c :: cs := by
    cases h : w.toList with
    | nil => exact absurd (String.toList_eq_nil_iff.1 h) hw.ne_empty
    | cons c cs => exact ⟨c, cs, rfl⟩
  have hfront : beginsNumber (String.ofList (w.toList ++ dotted ms)) = beginsNumber w := by
    simp [beginsNumber, hc]
  unfold operandOf
  rw [hfront]
  cases hn : beginsNumber w with
  | true => rw [if_pos rfl, Expr.dots_of_number hn]
  | false =>
    have hdot : '.' ∉ w.toList := by
      intro hdot
      have hnumber := hw.number hdot
      rw [hn] at hnumber
      cases hnumber
    rw [if_neg Bool.false_ne_true, names_path hdot fun m hm => (hms m hm).no_dot,
      Expr.dots_eq_members]
    rintro _ ⟨⟩
    exact hn

theorem membersOf?_dotted {ms : List String} (hms : ∀ m ∈ ms, IsReadableName m) :
    membersOf? (dotted ms) = some ms := by
  have hnames : names ("".toList ++ dotted ms) = "" :: ms :=
    names_path (by simp) fun m hm => (hms m hm).no_dot
  have hempty : "".toList ++ dotted ms = dotted ms := by simp
  rw [membersOf?, ← hempty, hnames]
  rfl

/-- What stops a chunk. -/
abbrev Marked (r : List Char) : Prop :=
  Stops (fun c => (mark? c).isSome) r

theorem marked_cons {c : Char} {p : Piece} (h : mark? c = some p) (r : List Char) :
    Marked (c :: r) := by
  rw [Marked, stops_cons, h]
  rfl

/-- A chunk is read up to a mark or the end. -/
theorem pieces_chunk {w r : List Char} (hne : w ≠ []) (hw : ∀ c ∈ w, mark? c = none)
    (hr : Marked r) : pieces (w ++ r) = .chunk w :: pieces r := by
  induction w with
  | nil => exact absurd rfl hne
  | cons c w ih =>
    rw [List.forall_mem_cons] at hw
    rw [List.cons_append, pieces, hw.1]
    cases w with
    | nil =>
      -- what follows does not begin with a chunk
      cases r with
      | nil => rfl
      | cons d r =>
        obtain ⟨p, hp⟩ := Option.isSome_iff_exists.1 (stops_cons.1 hr)
        rw [List.nil_append, pieces, hp]
        unfold mark? at hp
        split at hp <;> cases hp <;> rfl
    | cons c' w =>
      rw [ih (List.cons_ne_nil _ _) hw.2]

theorem pieces_mark {c : Char} {p : Piece} (h : mark? c = some p) (r : List Char) :
    pieces (c :: r) = p :: pieces r := by
  rw [pieces, h]

theorem unmarked_dotted {ms : List String} (hms : ∀ m ∈ ms, IsReadableName m) :
    ∀ c ∈ dotted ms, mark? c = none := by
  intro c hc
  obtain ⟨m, hm, hc⟩ := List.mem_flatMap.1 hc
  rcases List.mem_cons.1 hc with rfl | hc
  · rfl
  · exact (hms m hm).unmarked c hc

/-- Members are read as members of the call before them. -/
theorem run_members {cs : List OpenCall} {args : List Expr} {ps : Pending} {l : Expr}
    {ms : List String} {r : List Char} (hms : ∀ m ∈ ms, IsReadableName m) (hr : Marked r) :
    Parse.run ⟨cs, args, .operand ps l⟩ (pieces (dotted ms ++ r)) =
      Parse.run ⟨cs, args, .operand ps (l.members ms)⟩ (pieces r) := by
  cases ms with
  | nil => rfl
  | cons m ms =>
    have hne : dotted (m :: ms) ≠ [] := List.cons_ne_nil _ _
    rw [pieces_chunk hne (unmarked_dotted hms) hr, Parse.run_cons, Parse.step,
      membersOf?_dotted hms]
    rfl

/-- From the front of a text `e`, with the members behind it, is read as it is grouped. -/
def Expr.ParsesRegrouped (e : Expr) : Prop :=
  ∀ (cs : List OpenCall) (args : List Expr) (ps : Pending) (ms : List String) (r : List Char),
    (∀ m ∈ ms, IsReadableName m) → Marked r →
    Parse.run ⟨cs, args, .start ps⟩ (pieces (e.chars ++ (dotted ms ++ r))) =
      Parse.run ⟨cs, args, .operand (e.spine.1 ++ ps) (e.spine.2.dots ms)⟩ (pieces r)

/-- So is `e` without members behind it. -/
theorem Expr.ParsesRegrouped.bare {e : Expr} (h : e.ParsesRegrouped) (cs : List OpenCall)
    (args : List Expr) (ps : Pending) {r : List Char} (hr : Marked r) :
    Parse.run ⟨cs, args, .start ps⟩ (pieces (e.chars ++ r)) =
      Parse.run ⟨cs, args, .operand (e.spine.1 ++ ps) e.spine.2⟩ (pieces r) :=
  h cs args ps [] r nofun hr

/-- A row of arguments is read up to the end of its call. -/
theorem run_row {a : Expr} {as : List Expr} (h : ∀ e ∈ a :: as, e.ParsesRegrouped)
    (c : OpenCall) (cs : List OpenCall) (done : List Expr) (r : List Char) :
    Parse.run ⟨c :: cs, done, .start []⟩
        (pieces (a.chars ++ (following (as.map Expr.text) ++ ')' :: r))) =
      Parse.run ⟨cs, c.args, .operand c.pending
        (.call c.function (done ++ Expr.regroupedAll (a :: as)))⟩ (pieces r) := by
  induction as generalizing a done with
  | nil =>
    have ha := h a List.mem_cons_self
    rw [List.map_nil, following_nil, List.nil_append, ha.bare _ _ _ (marked_cons rfl r),
      pieces_mark rfl, Parse.run_cons, List.append_nil]
    rfl
  | cons b as ih =>
    obtain ⟨ha, has⟩ := List.forall_mem_cons.1 h
    have hrest := ih has (done ++ [assigned a.spine.1 a.spine.2])
    rw [List.append_assoc] at hrest
    rw [List.map_cons, following_cons, List.cons_append, ha.bare _ _ _ (marked_cons rfl _),
      pieces_mark rfl, Parse.run_cons, List.append_nil, List.cons_append, pieces_mark rfl,
      List.append_assoc]
    exact hrest

/-- **From the front of a text an expression is read as it is grouped**, up to a mark. -/
theorem Expr.Readable.parsesRegrouped {e : Expr} (he : e.Readable) : e.ParsesRegrouped := by
  induction he with
  | @word w hw =>
    intro cs args ps ms r hms hr
    have hne : w.toList ++ dotted ms ≠ [] := by simp [hw.ne_empty]
    have hmarks : ∀ c ∈ w.toList ++ dotted ms, mark? c = none :=
      List.forall_mem_append.2 ⟨hw.unmarked, unmarked_dotted hms⟩
    rw [chars_word, ← List.append_assoc, pieces_chunk hne hmarks hr, Parse.run_cons, Parse.step,
      operandOf_append_dotted hw hms]
    rfl
  | @access t m ht htakes hm ih =>
    intro cs args ps ms r hms hr
    have hmembers := ih cs args ps (m :: ms) r (List.forall_mem_cons.2 ⟨hm, hms⟩) hr
    rw [dotted_cons, List.cons_append, List.append_assoc] at hmembers
    rw [chars_access, List.append_assoc]
    exact hmembers
  | @assign l x op hl hop hx ihl ihx =>
    intro cs args ps ms r hms hr
    have hne : op.toList ≠ [] := by simp [hop.ne_empty]
    -- the left side, the operator with its spaces, and then the right side with the members
    rw [chars_assign, List.append_assoc, List.cons_append, List.append_assoc, List.cons_append,
      ihl.bare _ _ _ (marked_cons rfl _), pieces_mark rfl,
      pieces_chunk hne hop.unmarked (marked_cons rfl _), pieces_mark rfl]
    simp only [Parse.run_cons, Parse.step, Option.bind_some, String.ofList_toList]
    rw [ihx _ _ _ ms r hms hr, spine, List.append_assoc, List.cons_append]
  | @call f args hf hargs ih =>
    intro cs outer ps ms r hms hr
    have hne : f.toList ≠ [] := by simp [hf.ne_empty]
    have hf' : operandOf f.toList = .word f := by
      have hpath : operandOf (f.toList ++ dotted []) = (Expr.word f).dots [] :=
        operandOf_append_dotted hf.isReadableLiteral nofun
      simpa using hpath
    have hrow : Parse.run ⟨⟨outer, ps, f⟩ :: cs, [], .start []⟩
        (pieces ((commaSeparated (args.map Expr.text)).toList ++ ')' :: (dotted ms ++ r))) =
        Parse.run ⟨cs, outer, .operand ps (.call f (regroupedAll args))⟩
          (pieces (dotted ms ++ r)) := by
      cases args with
      | nil =>
        have hnil : (commaSeparated []).toList = [] := by simp [commaSeparated]
        rw [List.map_nil, hnil, List.nil_append, pieces_mark rfl, Parse.run_cons]
        rfl
      | cons a as =>
        rw [List.map_cons, toList_commaSeparated_cons, List.append_assoc]
        exact run_row ih ⟨outer, ps, f⟩ cs [] (dotted ms ++ r)
    rw [chars_call, List.append_assoc, List.cons_append, List.append_assoc, List.singleton_append,
      pieces_chunk hne hf.unmarked (marked_cons rfl _), pieces_mark rfl]
    simp only [Parse.run_cons, Parse.step, Option.bind_some, hf']
    have hdots : (Expr.call f (regroupedAll args)).dots ms =
        (Expr.call f (regroupedAll args)).members ms :=
      dots_eq_members (fun w hw => by cases hw) ms
    rw [hrow, run_members hms hr, spine, hdots, List.nil_append]

/-- **A text is read as its expression regrouped.** -/
theorem Expr.parse_text {e : Expr} (he : e.Readable) : parse e.text = some e.regrouped := by
  have hrun := he.parsesRegrouped.bare [] [] [] (r := []) stops_nil
  rw [List.append_nil, List.append_nil] at hrun
  have htext : e.text.toList = e.chars := rfl
  rw [parse, htext, Parse.initial, hrun]
  rfl

theorem assigned_append (ps qs : Pending) (r : Expr) :
    assigned (ps ++ qs) r = assigned qs (assigned ps r) := by
  induction ps generalizing r with
  | nil => rfl
  | cons p ps ih => exact ih _

/-- What needs no parentheses is read as it is. -/
theorem Ordered.regrouped_eq {b : Binding} {e : Expr} (h : Ordered b e) (he : e.Readable) :
    e.regrouped = e ∧ (b = .tight → e.spine = ([], e)) := by
  -- an operand has no assignments before it, so `regrouped` follows from `spine`
  have tight {e : Expr} {P : Prop} (hspine : e.spine = ([], e)) :
      e.regrouped = e ∧ (P → e.spine = ([], e)) := by
    refine ⟨?_, fun _ => hspine⟩
    rw [Expr.regrouped, hspine]
    rfl
  induction h with
  | word => exact tight rfl
  | @access t op m ht ih =>
    cases he with
    | access ht' htakes hm =>
      have hdot : t.dots [m] = t.members [m] :=
        Expr.dots_eq_members (fun w hw => (htakes w hw).no_number) [m]
      have hspine : t.spine = ([], t) := (ih ht').2 rfl
      refine tight ?_
      rw [Expr.spine, hspine]
      exact congrArg _ hdot
  | @call f args hargs ih =>
    cases he with
    | call hf hargs' =>
      have hall : Expr.regroupedAll args = args := by
        have hid : args.map Expr.regrouped = args.map id :=
          List.map_congr_left fun a ha => (ih a ha (hargs' a ha)).1
        rw [Expr.regroupedAll_eq_map, hid, List.map_id]
      refine tight ?_
      rw [Expr.spine, hall]
  | loosen ht ih => exact ⟨(ih he).1, nofun⟩
  | @assign l r op hl hr ihl ihr =>
    cases he with
    | assign hl' hop hr' =>
      refine ⟨?_, nofun⟩
      have hright : assigned r.spine.1 r.spine.2 = r := (ihr hr').1
      rw [Expr.regrouped, Expr.spine, (ihl hl').2 rfl, assigned_append, hright]
      rfl

/-- **A text is read as its own expression iff this needs no parentheses.** -/
theorem Expr.parse_text_iff {e : Expr} (he : e.Readable) :
    parse e.text = some e ↔ Ordered .loose e := by
  refine ⟨ordered_of_parse, fun h => ?_⟩
  rw [parse_text he, (h.regrouped_eq he).1]

end Shading.Target
