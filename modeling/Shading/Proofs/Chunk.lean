import Shading.Target.Printer

/-!
# Words in a text

What sets words apart, and how a text that begins with a word, a path or a row of items is read:
up to the first character that stops it, and in one way.

* `append_inj_of_stops`: a text is read up to what stops it.
* `append_dotted_inj`: a path is read name by name.
* `commaSeparated_append_inj`: **a row is read item by item.**
-/

namespace Shading.Target

/-- The characters that set words apart. -/
def isDivider (c : Char) : Bool :=
  c == ' ' || c == '\n' || c == ',' || c == '(' || c == ')'

/-- A text that is not set apart in itself. -/
def IsChunk (w : String) : Prop :=
  ∀ c ∈ w.toList, isDivider c = false

instance (w : String) : Decidable (IsChunk w) :=
  decidable_of_iff (w.toList.any isDivider = false) (by simp [IsChunk])

/-- The text begins with a digit or with a dot. -/
def beginsNumber (w : String) : Bool :=
  w.toList.head?.any fun c => c.isDigit || c == '.'

/-- A name: neither the word for a return nor a number, and without dots. -/
structure IsIdentifier (w : String) : Prop where
  ne_empty : w ≠ ""
  chunk : IsChunk w
  ne_return : w ≠ "return"
  no_dot : '.' ∉ w.toList
  no_number : beginsNumber w = false

instance (w : String) : Decidable (IsIdentifier w) :=
  decidable_of_iff
    (w ≠ "" ∧ IsChunk w ∧ w ≠ "return" ∧ '.' ∉ w.toList ∧ beginsNumber w = false)
    ⟨fun ⟨h₁, h₂, h₃, h₄, h₅⟩ => ⟨h₁, h₂, h₃, h₄, h₅⟩, fun ⟨h₁, h₂, h₃, h₄, h₅⟩ =>
      ⟨h₁, h₂, h₃, h₄, h₅⟩⟩

/-- A literal; only in numbers there are dots. -/
structure IsToken (w : String) : Prop where
  ne_empty : w ≠ ""
  chunk : IsChunk w
  ne_return : w ≠ "return"
  number : '.' ∈ w.toList → beginsNumber w = true

instance (w : String) : Decidable (IsToken w) :=
  decidable_of_iff
    (w ≠ "" ∧ IsChunk w ∧ w ≠ "return" ∧ ('.' ∈ w.toList → beginsNumber w = true))
    ⟨fun ⟨h₁, h₂, h₃, h₄⟩ => ⟨h₁, h₂, h₃, h₄⟩, fun ⟨h₁, h₂, h₃, h₄⟩ => ⟨h₁, h₂, h₃, h₄⟩⟩

theorem IsIdentifier.isToken {w : String} (h : IsIdentifier w) : IsToken w :=
  ⟨h.ne_empty, h.chunk, h.ne_return, fun hdot => absurd hdot h.no_dot⟩

/-- A literal that is no number is as good as a name. -/
theorem IsToken.isIdentifier {w : String} (h : IsToken w) (hn : beginsNumber w = false) :
    IsIdentifier w := by
  refine ⟨h.ne_empty, h.chunk, h.ne_return, fun hdot => ?_, hn⟩
  have hnumber := h.number hdot
  rw [hn] at hnumber
  cases hnumber

/-- What follows, if anything does, begins with a character that stops what is before it. -/
def Stops (p : Char → Bool) (r : List Char) : Prop :=
  ∀ c ∈ r.head?, p c = true

@[simp] theorem stops_nil {p : Char → Bool} : Stops p [] := nofun

@[simp] theorem stops_cons {p : Char → Bool} {c : Char} {r : List Char} :
    Stops p (c :: r) ↔ p c = true := by
  simp [Stops]

theorem Stops.mono {p q : Char → Bool} {r : List Char} (h : Stops p r)
    (hpq : ∀ c, p c = true → q c = true) : Stops q r :=
  fun c hc => hpq c (h c hc)

/-- A text is read in one way up to the first character that stops it. -/
theorem append_inj_of_stops {p : Char → Bool} {u v r r' : List Char} (hu : ∀ c ∈ u, p c = false)
    (hv : ∀ c ∈ v, p c = false) (hr : Stops p r) (hr' : Stops p r') (h : u ++ r = v ++ r') :
    u = v ∧ r = r' := by
  induction u generalizing v with
  | nil =>
    cases v with
    | nil => exact ⟨rfl, h⟩
    | cons c v =>
      -- the first text stops at a character that belongs to the second one
      rw [List.nil_append] at h
      rw [h, List.cons_append, stops_cons, hv c List.mem_cons_self] at hr
      cases hr
  | cons c u ih =>
    cases v with
    | nil =>
      rw [List.nil_append] at h
      rw [← h, List.cons_append, stops_cons, hu c List.mem_cons_self] at hr'
      cases hr'
    | cons c' v =>
      rw [List.cons_append, List.cons_append, List.cons.injEq] at h
      rw [List.forall_mem_cons] at hu hv
      obtain ⟨rfl, h⟩ := h
      obtain ⟨rfl, rfl⟩ := ih hu.2 hv.2 h
      exact ⟨rfl, rfl⟩

/-- A word that something is set apart from is read in one way. -/
theorem IsChunk.append_inj {w w' : String} {r r' : List Char} (hw : IsChunk w) (hw' : IsChunk w')
    (hr : Stops isDivider r) (hr' : Stops isDivider r') (h : w.toList ++ r = w'.toList ++ r') :
    w = w' ∧ r = r' := by
  obtain ⟨hwords, hrest⟩ := append_inj_of_stops hw hw' hr hr' h
  exact ⟨String.toList_injective hwords, hrest⟩

/-- A chunk that shows begins with a character of its own. -/
theorem IsChunk.exists_cons {w : String} (h : IsChunk w) (hne : w ≠ "") :
    ∃ c cs, w.toList = c :: cs ∧ isDivider c = false := by
  cases hw : w.toList with
  | nil => exact absurd (String.toList_eq_nil_iff.1 hw) hne
  | cons c cs => exact ⟨c, cs, rfl, h c (by simp [hw])⟩

theorem IsChunk.newline_not_mem {w : String} (h : IsChunk w) : '\n' ∉ w.toList := by
  intro hmem
  have hdiv := h _ hmem
  cases hdiv

/-- The members that are reached one after the other, with the dots before them. -/
def dotted (ms : List String) : List Char :=
  ms.flatMap fun m => '.' :: m.toList

@[simp] theorem dotted_nil : dotted [] = [] := rfl

@[simp] theorem dotted_cons (m : String) (ms : List String) :
    dotted (m :: ms) = '.' :: (m.toList ++ dotted ms) := rfl

theorem stops_dotted (ms : List String) : Stops (· == '.') (dotted ms) := by
  cases ms <;> simp

theorem isDivider_eq_false_of_mem_dotted {ms : List String} (h : ∀ m ∈ ms, IsChunk m) :
    ∀ c ∈ dotted ms, isDivider c = false := by
  intro c hc
  obtain ⟨m, hm, hc⟩ := List.mem_flatMap.1 hc
  rcases List.mem_cons.1 hc with rfl | hc
  · rfl
  · exact h m hm c hc

/-- A path is read in one way. -/
theorem append_dotted_inj {w w' : String} {ms ms' : List String} (hw : '.' ∉ w.toList)
    (hw' : '.' ∉ w'.toList) (hms : ∀ m ∈ ms, '.' ∉ m.toList) (hms' : ∀ m ∈ ms', '.' ∉ m.toList)
    (h : w.toList ++ dotted ms = w'.toList ++ dotted ms') : w = w' ∧ ms = ms' := by
  have no_dot {v : String} (hv : '.' ∉ v.toList) : ∀ c ∈ v.toList, (c == '.') = false := by
    intro c hc
    rw [beq_eq_false_iff_ne]
    rintro rfl
    exact hv hc
  induction ms generalizing w w' ms' with
  | nil =>
    obtain ⟨hwords, hrest⟩ :=
      append_inj_of_stops (no_dot hw) (no_dot hw') (stops_dotted _) (stops_dotted _) h
    cases ms' with
    | nil => exact ⟨String.toList_injective hwords, rfl⟩
    | cons m' ms' => cases hrest
  | cons m ms ih =>
    obtain ⟨hwords, hrest⟩ :=
      append_inj_of_stops (no_dot hw) (no_dot hw') (stops_dotted _) (stops_dotted _) h
    cases ms' with
    | nil => cases hrest
    | cons m' ms' =>
      rw [List.forall_mem_cons] at hms hms'
      rw [dotted_cons, dotted_cons, List.cons.injEq] at hrest
      obtain ⟨rfl, rfl⟩ := ih hms.1 hms'.1 hms.2 hms'.2 hrest.2
      exact ⟨String.toList_injective hwords, rfl⟩

/-- A literal that is written like a path is a name. -/
theorem IsToken.eq_of_path {w w' : String} {ms : List String} (hw : IsToken w)
    (hw' : IsIdentifier w') (h : w.toList = w'.toList ++ dotted ms) : w = w' ∧ ms = [] := by
  obtain ⟨c, cs, hhead, -⟩ := hw'.chunk.exists_cons hw'.ne_empty
  cases ms with
  | nil =>
    rw [dotted_nil, List.append_nil] at h
    exact ⟨String.toList_injective h, rfl⟩
  | cons m ms =>
    -- a literal with a dot would begin like a number, and so would the name
    have hnumber := hw.number (by simp [h])
    have hname := hw'.no_number
    rw [beginsNumber, h, hhead] at hnumber
    rw [beginsNumber, hhead] at hname
    rw [List.cons_append, List.head?_cons] at hnumber
    rw [List.head?_cons, hnumber] at hname
    cases hname

/-- How strongly the parts of an expression hold together. -/
inductive Binding where
  /-- As those of operands. -/
  | tight
  /-- As those of assignments. -/
  | loose

/-- What stops an expression. A space stops an operand only. -/
def Binding.stop : Binding → Char → Bool
  | tight, c => c == ' ' || c == ',' || c == ')'
  | loose, c => c == ',' || c == ')'

theorem Stops.isDivider {b : Binding} {r : List Char} (h : Stops b.stop r) :
    Stops isDivider r := by
  refine h.mono fun c hc => ?_
  cases b with
  | tight =>
    simp only [Binding.stop, Bool.or_eq_true, beq_iff_eq] at hc
    rcases hc with (rfl | rfl) | rfl <;> rfl
  | loose =>
    simp only [Binding.stop, Bool.or_eq_true, beq_iff_eq] at hc
    rcases hc with rfl | rfl <;> rfl

theorem Stops.tight {r : List Char} (h : Stops Binding.loose.stop r) :
    Stops Binding.tight.stop r := by
  refine h.mono fun c hc => ?_
  simp only [Binding.stop, Bool.or_eq_true, beq_iff_eq] at hc ⊢
  exact hc.imp_left .inr

/-- The items behind the first one in a row, with the commas before them. -/
def following (items : List String) : List Char :=
  items.flatMap fun t => ',' :: ' ' :: t.toList

@[simp] theorem following_nil : following [] = [] := rfl

@[simp] theorem following_cons (t : String) (items : List String) :
    following (t :: items) = ',' :: ' ' :: (t.toList ++ following items) := rfl

theorem stops_following (items : List String) (r : List Char) :
    Stops Binding.loose.stop (following items ++ ')' :: r) := by
  cases items <;> simp [Binding.stop]

theorem toList_commaSeparated_cons (t : String) (items : List String) :
    (commaSeparated (t :: items)).toList = t.toList ++ following items := by
  induction items generalizing t with
  | nil => simp [commaSeparated]
  | cons t' items ih =>
    have hmore : commaSeparated (t :: t' :: items) = t ++ ", " ++ commaSeparated (t' :: items) :=
      String.intercalate_cons_cons
    rw [hmore, String.toList_append, String.toList_append, ih, following_cons, List.append_assoc]
    rfl

theorem newline_not_mem_commaSeparated {items : List String} (h : ∀ t ∈ items, '\n' ∉ t.toList) :
    '\n' ∉ (commaSeparated items).toList := by
  cases items with
  | nil => exact List.not_mem_nil
  | cons t items =>
    rw [List.forall_mem_cons] at h
    rw [toList_commaSeparated_cons, List.mem_append, following, List.mem_flatMap]
    rintro (hmem | ⟨u, hu, hmem⟩)
    · exact h.1 hmem
    · refine h.2 u hu ?_
      simpa using hmem

section Row

variable {α : Type} {f : α → String} {as as' : List α} {r r' : List Char}
  (hinj : ∀ a ∈ as, ∀ a' ∈ as', ∀ {r r' : List Char}, Stops Binding.loose.stop r →
    Stops Binding.loose.stop r' → (f a).toList ++ r = (f a').toList ++ r' → a = a' ∧ r = r')

include hinj

theorem following_append_inj
    (h : following (as.map f) ++ ')' :: r = following (as'.map f) ++ ')' :: r') :
    as = as' ∧ r = r' := by
  induction as generalizing as' with
  | nil =>
    cases as' with
    | nil => exact ⟨rfl, (List.cons.inj h).2⟩
    | cons a' as' => cases h
  | cons a as ih =>
    cases as' with
    | nil => cases h
    | cons a' as' =>
      simp only [List.map_cons, following_cons, List.cons_append, List.append_assoc,
        List.cons.injEq, true_and] at h
      obtain ⟨rfl, hrest⟩ := hinj a List.mem_cons_self a' List.mem_cons_self
        (stops_following _ _) (stops_following _ _) h
      obtain ⟨rfl, rfl⟩ := ih (fun a ha a' ha' =>
        hinj a (List.mem_cons_of_mem _ ha) a' (List.mem_cons_of_mem _ ha')) hrest
      exact ⟨rfl, rfl⟩

/-- Items in a row are read in one way if each of them is, up to the end of the row. -/
theorem commaSeparated_append_inj
    (has : ∀ a ∈ as, ∃ c cs, (f a).toList = c :: cs ∧ isDivider c = false)
    (has' : ∀ a ∈ as', ∃ c cs, (f a).toList = c :: cs ∧ isDivider c = false)
    (h : (commaSeparated (as.map f)).toList ++ ')' :: r =
      (commaSeparated (as'.map f)).toList ++ ')' :: r') : as = as' ∧ r = r' := by
  cases as with
  | nil =>
    cases as' with
    | nil => exact ⟨rfl, (List.cons.inj h).2⟩
    | cons a' as' =>
      -- the row is over, and no item begins like its end
      obtain ⟨c, cs, hc, hdiv⟩ := has' a' List.mem_cons_self
      rw [List.map_cons, toList_commaSeparated_cons, hc] at h
      obtain rfl := (List.cons.inj h).1
      cases hdiv
  | cons a as =>
    rw [List.map_cons, toList_commaSeparated_cons] at h
    cases as' with
    | nil =>
      obtain ⟨c, cs, hc, hdiv⟩ := has a List.mem_cons_self
      rw [hc] at h
      obtain rfl := (List.cons.inj h).1
      cases hdiv
    | cons a' as' =>
      rw [List.map_cons, toList_commaSeparated_cons, List.append_assoc, List.append_assoc] at h
      obtain ⟨rfl, hrest⟩ := hinj a List.mem_cons_self a' List.mem_cons_self
        (stops_following _ _) (stops_following _ _) h
      obtain ⟨rfl, rfl⟩ := following_append_inj (fun a ha a' ha' =>
        hinj a (List.mem_cons_of_mem _ ha) a' (List.mem_cons_of_mem _ ha')) hrest
      exact ⟨rfl, rfl⟩

end Row

end Shading.Target
