import Shading.Proofs.Chunk

/-!
# Legible expressions

Nothing groups the parts of an expression but the parentheses of calls. Still an expression can be
read in one way only, if its words cannot be taken for something else and no assignment stands
where an operand belongs.

* `Legible`: such expressions; `Plain`: those of them that are one chunk.
* `Legible.text_append_inj`: **an expression is read from the front of a text in one way.**
* `Legible.ne_operator_append`: no expression is an operator with an expression behind it.
-/

namespace Shading.Target

namespace Expr

/-- The expression as characters. -/
def chars (e : Expr) : List Char :=
  e.text.toList

/-- The member of a member, and so on, of `e`. -/
def members (e : Expr) (ms : List String) : Expr :=
  ms.foldl (fun target m => .access target "." m) e

@[simp] theorem chars_word (w : String) : (word w).chars = w.toList := rfl

@[simp] theorem chars_access (target : Expr) (m : String) :
    (access target "." m).chars = target.chars ++ '.' :: m.toList := by
  simp [chars, text]

@[simp] theorem chars_assign (l r : Expr) (op : String) :
    (assign l op r).chars = l.chars ++ ' ' :: (op.toList ++ ' ' :: r.chars) := by
  simp [chars, text]

@[simp] theorem chars_call (f : String) (args : List Expr) :
    (call f args).chars =
      f.toList ++ '(' :: ((commaSeparated (args.map Expr.text)).toList ++ [')']) := by
  simp [chars, text, texts_eq_map]

@[simp] theorem chars_members (e : Expr) (ms : List String) :
    (e.members ms).chars = e.chars ++ dotted ms := by
  induction ms generalizing e with
  | nil => simp [members]
  | cons m ms ih =>
    rw [members, List.foldl_cons, ← members, ih]
    simp

theorem members_append_singleton (e : Expr) (ms : List String) (m : String) :
    e.members (ms ++ [m]) = .access (e.members ms) "." m := by
  simp [members]

end Expr

/-- The expressions that consist of one chunk: literals and paths. -/
inductive Plain : Expr → Prop where
  | token {w : String} : IsToken w → Plain (.word w)
  | path {w : String} {ms : List String} :
    IsIdentifier w → (∀ m ∈ ms, IsIdentifier m) → Plain ((Expr.word w).members ms)

/-- The expressions that can be read: every operand binds tightly. -/
inductive Legible : Binding → Expr → Prop where
  | plain {e : Expr} : Plain e → Legible .tight e
  | call {f : String} {args : List Expr} {ms : List String} :
    IsIdentifier f → (∀ a ∈ args, Legible .loose a) → (∀ m ∈ ms, IsIdentifier m) →
    Legible .tight ((Expr.call f args).members ms)
  | loosen {e : Expr} : Legible .tight e → Legible .loose e
  | assign {l r : Expr} {op : String} :
    Legible .tight l → IsChunk op → Legible .loose r → Legible .loose (.assign l op r)

theorem Plain.isDivider_eq_false {e : Expr} (h : Plain e) : ∀ c ∈ e.chars, isDivider c = false := by
  cases h with
  | token hw => exact hw.chunk
  | path hw hms =>
    intro c hc
    rw [Expr.chars_members, List.mem_append] at hc
    rcases hc with hc | hc
    · exact hw.chunk c hc
    · exact isDivider_eq_false_of_mem_dotted (fun m hm => (hms m hm).chunk) c hc

theorem Plain.chars_injective {e e' : Expr} (h : Plain e) (h' : Plain e')
    (heq : e.chars = e'.chars) : e = e' := by
  cases h with
  | @token w hw =>
    cases h' with
    | token hw' => exact congrArg Expr.word (String.toList_injective heq)
    | path hw' hms' =>
      rw [Expr.chars_members] at heq
      obtain ⟨rfl, rfl⟩ := hw.eq_of_path hw' heq
      rfl
  | @path w ms hw hms =>
    rw [Expr.chars_members] at heq
    cases h' with
    | token hw' =>
      obtain ⟨rfl, rfl⟩ := hw'.eq_of_path hw heq.symm
      rfl
    | path hw' hms' =>
      rw [Expr.chars_members] at heq
      obtain ⟨rfl, rfl⟩ := append_dotted_inj hw.no_dot hw'.no_dot (fun m hm => (hms m hm).no_dot)
        (fun m hm => (hms' m hm).no_dot) heq
      rfl

/-- What consists of one chunk is not read as a call. -/
theorem Plain.append_ne_call {e : Expr} {f : String} {r cs : List Char} (h : Plain e)
    (hf : IsIdentifier f) (hr : Stops Binding.tight.stop r) :
    e.chars ++ r ≠ f.toList ++ '(' :: cs := by
  intro heq
  obtain ⟨-, rfl⟩ :=
    append_inj_of_stops h.isDivider_eq_false hf.chunk hr.isDivider (by simp [isDivider]) heq
  cases stops_cons.1 hr

namespace Legible

variable {b : Binding} {e e' v : Expr} {op : String} {r r' cs : List Char}

theorem exists_cons (h : Legible b e) : ∃ c cs, e.chars = c :: cs ∧ isDivider c = false := by
  have begins {w : String} (hw : IsChunk w) (hne : w ≠ "") (rest : List Char) :
      ∃ c cs, w.toList ++ rest = c :: cs ∧ isDivider c = false := by
    obtain ⟨c, cs, hc, hdiv⟩ := hw.exists_cons hne
    exact ⟨c, cs ++ rest, by simp [hc], hdiv⟩
  induction h with
  | plain hp =>
    cases hp with
    | token hw => exact hw.chunk.exists_cons hw.ne_empty
    | path hw _ =>
      rw [Expr.chars_members]
      exact begins hw.chunk hw.ne_empty _
  | call hf _ _ _ =>
    rw [Expr.chars_members, Expr.chars_call, List.append_assoc]
    exact begins hf.chunk hf.ne_empty _
  | loosen _ ih => exact ih
  | assign _ _ _ ihl _ =>
    obtain ⟨c, cs, hc, hdiv⟩ := ihl
    rw [Expr.chars_assign, hc]
    exact ⟨c, _, rfl, hdiv⟩

/-- A member binds to whatever is not a number. -/
theorem access {m : String} (h : Legible .tight e) (hword : ∀ w, e = .word w → IsIdentifier w)
    (hm : IsIdentifier m) : Legible .tight (.access e "." m) := by
  have snoc {ms : List String} (hms : ∀ m ∈ ms, IsIdentifier m) : ∀ v ∈ ms ++ [m], IsIdentifier v :=
    List.forall_mem_append.2 ⟨hms, List.forall_mem_singleton.2 hm⟩
  cases h with
  | plain hp =>
    cases hp with
    | @token w _ =>
      have hpath : Plain ((Expr.word w).members [m]) :=
        .path (hword w rfl) (List.forall_mem_singleton.2 hm)
      exact .plain hpath
    | path hw hms =>
      rw [← Expr.members_append_singleton]
      exact .plain (.path hw (snoc hms))
  | call hf hargs hms =>
    rw [← Expr.members_append_singleton]
    exact .call hf hargs (snoc hms)

/-- A call of which no member is taken. -/
theorem bareCall {f : String} {args : List Expr} (hf : IsIdentifier f)
    (hargs : ∀ a ∈ args, Legible .loose a) : Legible .tight (.call f args) := by
  have hcall : Legible .tight ((Expr.call f args).members []) := .call hf hargs nofun
  exact hcall

theorem toLoose (h : Legible b e) : Legible .loose e := by
  cases b with
  | tight => exact .loosen h
  | loose => exact h

/-- **An expression is read from the front of a text in one way**, up to what stops it. -/
theorem text_append_inj (h : Legible b e) (h' : Legible b e') (hr : Stops b.stop r)
    (hr' : Stops b.stop r') (heq : e.chars ++ r = e'.chars ++ r') : e = e' ∧ r = r' := by
  induction h generalizing e' r r' with
  | plain hp =>
    cases h' with
    | plain hp' =>
      obtain ⟨hchars, hrest⟩ := append_inj_of_stops hp.isDivider_eq_false hp'.isDivider_eq_false
        hr.isDivider hr'.isDivider heq
      exact ⟨hp.chars_injective hp' hchars, hrest⟩
    | call hf' _ _ =>
      rw [Expr.chars_members, Expr.chars_call, List.append_assoc, List.append_assoc] at heq
      exact absurd heq (hp.append_ne_call hf' hr)
  | @call f args ms hf hargs hms ih =>
    rw [Expr.chars_members, Expr.chars_call, List.append_assoc, List.append_assoc] at heq
    cases h' with
    | plain hp' => exact absurd heq.symm (hp'.append_ne_call hf hr')
    | @call f' args' ms' hf' hargs' hms' =>
      simp only [Expr.chars_members, Expr.chars_call, List.append_assoc, List.cons_append,
        List.nil_append] at heq
      obtain ⟨rfl, hrow⟩ :=
        hf.chunk.append_inj hf'.chunk (by simp [isDivider]) (by simp [isDivider]) heq
      obtain ⟨rfl, htail⟩ := commaSeparated_append_inj
        (fun a ha a' ha' => ih a ha (hargs' a' ha')) (fun a ha => (hargs a ha).exists_cons)
        (fun a ha => (hargs' a ha).exists_cons) (List.cons.inj hrow).2
      -- what is left of the two are the members behind the calls
      obtain ⟨hdotted, rfl⟩ := append_inj_of_stops
        (isDivider_eq_false_of_mem_dotted fun m hm => (hms m hm).chunk)
        (isDivider_eq_false_of_mem_dotted fun m hm => (hms' m hm).chunk)
        hr.isDivider hr'.isDivider htail
      have hpath : "".toList ++ dotted ms = "".toList ++ dotted ms' := hdotted
      obtain ⟨-, rfl⟩ := append_dotted_inj (by decide) (by decide)
        (fun m hm => (hms m hm).no_dot) (fun m hm => (hms' m hm).no_dot) hpath
      exact ⟨rfl, rfl⟩
  | loosen hl ih =>
    cases h' with
    | loosen hl' => exact ih hl' hr.tight hr'.tight heq
    | assign hl' _ _ =>
      -- the operand would be followed by the operator, but a space stops no whole expression
      rw [Expr.chars_assign, List.append_assoc] at heq
      obtain ⟨-, rfl⟩ := ih hl' hr.tight (by simp [Binding.stop]) heq
      cases stops_cons.1 hr
  | assign hl hop _ ihl ihx =>
    rw [Expr.chars_assign, List.append_assoc] at heq
    cases h' with
    | loosen hl' =>
      obtain ⟨-, rfl⟩ := ihl hl' (by simp [Binding.stop]) hr'.tight heq
      cases stops_cons.1 hr'
    | assign hl' hop' hx' =>
      rw [Expr.chars_assign, List.append_assoc] at heq
      obtain ⟨rfl, hop_right⟩ := ihl hl' (by simp [Binding.stop]) (by simp [Binding.stop]) heq
      simp only [List.cons_append, List.append_assoc, List.cons.injEq, true_and] at hop_right
      obtain ⟨rfl, hright⟩ :=
        hop.append_inj hop' (by simp [isDivider]) (by simp [isDivider]) hop_right
      obtain ⟨rfl, rfl⟩ := ihx hx' hr hr' (List.cons.inj hright).2
      exact ⟨rfl, rfl⟩

/-- An operand that begins with a chunk and a space ends before the space. -/
theorem eq_of_append_eq_space (h : Legible .tight e) (hop : IsChunk op)
    (hr : Stops Binding.tight.stop r) (heq : e.chars ++ r = op.toList ++ ' ' :: cs) :
    r = ' ' :: cs := by
  cases h with
  | plain hp =>
    exact (append_inj_of_stops hp.isDivider_eq_false hop hr.isDivider (by simp [isDivider])
      heq).2
  | call hf _ _ =>
    rw [Expr.chars_members, Expr.chars_call, List.append_assoc, List.append_assoc] at heq
    obtain ⟨-, hparen⟩ :=
      hf.chunk.append_inj hop (by simp [isDivider]) (by simp [isDivider]) heq
    cases (List.cons.inj hparen).1

/-- An expression that begins with a chunk and a space is an assignment. -/
theorem exists_assign_of_space (h : Legible .loose e) (hop : IsChunk op)
    (heq : e.chars = op.toList ++ ' ' :: cs) :
    ∃ l o x, e = .assign l o x ∧ IsChunk o ∧ Legible .loose x ∧
      cs = o.toList ++ ' ' :: x.chars := by
  cases h with
  | loosen ht =>
    have hnil := ht.eq_of_append_eq_space hop stops_nil (by rwa [List.append_nil])
    cases hnil
  | assign hl ho hx =>
    rw [Expr.chars_assign] at heq
    have hrest := hl.eq_of_append_eq_space hop (by simp [Binding.stop]) heq
    exact ⟨_, _, _, rfl, ho, hx, (List.cons.inj hrest).2.symm⟩

/-- **No expression is an operator with an expression behind it.** Operands and operators take
turns, so the two cannot have the same number of them. -/
theorem ne_operator_append (h : Legible .loose e) (hv : Legible .loose v) (hop : IsChunk op) :
    e.chars ≠ op.toList ++ ' ' :: v.chars := by
  generalize hb : Binding.loose = b at h
  induction h generalizing v op with
  | plain => cases hb
  | call => cases hb
  | loosen ht _ =>
    intro heq
    have hnil := ht.eq_of_append_eq_space hop stops_nil (by rwa [List.append_nil])
    cases hnil
  | @assign l x o hl ho hx _ ihx =>
    intro heq
    obtain ⟨_, _, _, ⟨⟩, -, -, hbehind⟩ := (assign hl ho hx).exists_assign_of_space hop heq
    -- now `v` begins with the operator, and what is behind it is shorter than the expression
    obtain ⟨_, o', x', -, ho', hx', hshift⟩ := hv.exists_assign_of_space ho hbehind
    exact ihx hx' ho' rfl hshift

/-- A return is no expression. -/
theorem ne_return (h : Legible .loose e) : e.chars ≠ "return".toList := by
  intro heq
  have not_mem {c : Char} (hc : c ∈ e.chars) (hreturn : c ∉ "return".toList) : False :=
    hreturn (heq ▸ hc)
  cases h with
  | loosen ht =>
    cases ht with
    | plain hp =>
      cases hp with
      | token hw => exact hw.ne_return (String.toList_injective heq)
      | @path w ms hw _ =>
        cases ms with
        | nil => exact hw.ne_return (String.toList_injective heq)
        | cons m ms => exact not_mem (c := '.') (by simp) (by decide)
    | call _ _ _ => exact not_mem (c := '(') (by simp) (by decide)
  | assign _ _ _ => exact not_mem (c := ' ') (by simp) (by decide)

/-- An expression stays on its line. -/
theorem newline_not_mem (h : Legible b e) : '\n' ∉ e.chars := by
  have members {ms : List String} (hms : ∀ m ∈ ms, IsIdentifier m) : '\n' ∉ dotted ms := by
    intro hmem
    have hdiv := isDivider_eq_false_of_mem_dotted (fun m hm => (hms m hm).chunk) _ hmem
    cases hdiv
  induction h with
  | plain hp =>
    intro hmem
    have hdiv := hp.isDivider_eq_false _ hmem
    cases hdiv
  | @call f args ms hf _ hms ih =>
    have hargs : '\n' ∉ (commaSeparated (args.map Expr.text)).toList := by
      refine newline_not_mem_commaSeparated fun t ht => ?_
      obtain ⟨a, ha, rfl⟩ := List.mem_map.1 ht
      exact ih a ha
    simp [hf.chunk.newline_not_mem, members hms, hargs]
  | loosen _ ih => exact ih
  | assign _ hop _ ihl ihx => simp [ihl, ihx, hop.newline_not_mem]

end Legible

end Shading.Target
