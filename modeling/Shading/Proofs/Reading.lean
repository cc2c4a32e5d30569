import Shading.Proofs.Sentence

/-!
# What the grammar rules out

A reader that only counts open calls follows every phrase of the grammar to its end, so where it
stops there is no phrase. A line tells by its first tokens which of the rules for statements it
can follow.

* `Derives.run_eq_done`: **the reader accepts what the grammar derives.**
* `Sentence.initialization_iff`, `Sentence.effect_iff`, `Sentence.returnValue_iff`: a line is a
  sentence iff its expression follows the grammar.
* `Sentence.written_ne`: no sentence has a space before its end.
-/

namespace Shading.Target

/-- Where a reader of an expression stands, and in how many calls. -/
inductive Reading where
  /-- An operand has to come. -/
  | operand (depth : Nat)
  /-- A call has just been opened: an operand has to come, or the end of the call. -/
  | opened (depth : Nat)
  /-- An operand has been read. -/
  | done (depth : Nat)
deriving DecidableEq

namespace Reading

/-- The step of the reader over one token, if the token can stand there. -/
def next : Reading → Token → Option Reading
  | operand d, .word _ => some (done d)
  | opened d, .word _ => some (done d)
  | opened (d + 1), .closing => some (done d)
  | done d, .member _ => some (operand d)
  | done d, .operator _ => some (operand d)
  | done d, .opening => some (opened (d + 1))
  | done (d + 1), .comma => some (operand (d + 1))
  | done (d + 1), .closing => some (done d)
  | _, _ => none

/-- The steps over several tokens. -/
def run (s : Reading) (ts : List Token) : Option Reading :=
  ts.foldlM next s

@[simp] theorem run_nil (s : Reading) : s.run [] = some s := rfl

@[simp] theorem run_cons (s : Reading) (t : Token) (ts : List Token) :
    s.run (t :: ts) = (s.next t).bind (·.run ts) := by
  rw [run, List.foldlM_cons]
  rfl

@[simp] theorem run_append (s : Reading) (ts ts' : List Token) :
    s.run (ts ++ ts') = (s.run ts).bind (·.run ts') := by
  rw [run, List.foldlM_append]
  rfl

/-- The reader waits for an operand. -/
inductive Awaits (d : Nat) : Reading → Prop where
  | operand : Awaits d (.operand d)
  | opened : Awaits d (.opened d)

theorem Awaits.next_word {d : Nat} {s : Reading} (h : Awaits d s) (w : String) :
    s.next (.word w) = some (done d) := by
  cases h <;> rfl

theorem Awaits.run_word {d : Nat} {s : Reading} (h : Awaits d s) (w : String) :
    s.run [.word w] = some (done d) := by
  rw [run_cons, h.next_word]
  rfl

/-- Where an operand has to come, only a word can, or the end of a call. -/
theorem Awaits.next_eq_none {d : Nat} {s : Reading} (h : Awaits d s) {t : Token}
    (hword : ∀ w, t ≠ .word w) (hclosing : t ≠ .closing) : s.next t = none := by
  cases h <;> cases t <;> first | rfl | exact absurd rfl hclosing | exact absurd rfl (hword _)

end Reading

open Reading in
/-- **The grammar is read to its end.** A reader that waits for an operand reads every phrase; only
in a call does it read several arguments. -/
theorem Derives.run_eq_done {p : Phrase} {ts : List Token} (h : Derives p ts) {d : Nat}
    {s : Reading} (hs : Awaits d s) (hd : p = .arguments → 0 < d) :
    s.run ts = some (done d) := by
  induction h generalizing d s with
  | word _ => exact hs.run_word _
  | access _ _ ih => simp [ih hs nofun, next]
  | callNothing _ =>
    rw [run_cons, hs.next_word]
    rfl
  | call _ _ ih =>
    -- the arguments are read one call deeper
    have hargs := ih (Awaits.opened (d := d + 1)) fun _ => d.succ_pos
    rw [run_cons, hs.next_word]
    simp [next, hargs]
  | operand _ ih => exact ih hs nofun
  | assign _ _ _ ihl ihr =>
    have hl := ihl hs nofun
    have hr := ihr (Awaits.operand (d := d)) nofun
    simp [hl, hr, next]
  | last _ ih => exact ih hs nofun
  | more _ _ ihe iha =>
    have he := ihe hs nofun
    have ha := iha (Awaits.operand (d := d)) hd
    cases d with
    | zero => exact absurd (hd rfl) (Nat.lt_irrefl 0)
    | succ d => simp [he, ha, next]

/-- No phrase begins with a word and a gap. -/
theorem Derives.ne_word_cons_gap {p : Phrase} {w : String} {ts : List Token} :
    ¬ Derives p (.word w :: .gap :: ts) := by
  intro h
  have hrun := h.run_eq_done (Reading.Awaits.operand (d := 1)) fun _ => Nat.one_pos
  simp [Reading.next] at hrun

/-- No phrase begins with a return. -/
theorem Derives.ne_ret_cons {p : Phrase} {ts : List Token} : ¬ Derives p (.ret :: ts) := by
  intro h
  have hrun := h.run_eq_done (Reading.Awaits.operand (d := 1)) fun _ => Nat.one_pos
  simp [Reading.next] at hrun

theorem mem_separated {t : Token} {tss : List (List Token)} (h : t ∈ separated tss) :
    t = .comma ∨ ∃ ts ∈ tss, t ∈ ts := by
  induction tss with
  | nil => cases h
  | cons ts tss ih =>
    cases tss with
    | nil => exact .inr ⟨ts, List.mem_cons_self, h⟩
    | cons ts' tss =>
      rw [separated_cons_cons] at h
      rcases List.mem_append.1 h with h | h
      · exact .inr ⟨ts, List.mem_cons_self, h⟩
      rcases List.mem_cons.1 h with h | h
      · exact .inl h
      rcases ih h with h | ⟨ts'', hmem, h⟩
      · exact .inl h
      · exact .inr ⟨ts'', List.mem_cons_of_mem _ hmem, h⟩

/-- Gaps and returns stand outside of expressions. -/
theorem Expr.mem_tokens {e : Expr} {t : Token} (h : t ∈ e.tokens) : t ≠ .gap ∧ t ≠ .ret := by
  have items_mem : ∀ {es : List Expr},
      (∀ e ∈ es, ∀ {t}, t ∈ e.tokens → t ≠ .gap ∧ t ≠ .ret) →
      ∀ {t}, t ∈ separated (tokenLists es) → t ≠ .gap ∧ t ≠ .ret := by
    intro es ih t h
    rw [tokenLists_eq_map] at h
    rcases mem_separated h with rfl | ⟨ts, hts, h⟩
    · simp
    · obtain ⟨e, he, rfl⟩ := List.mem_map.1 hts
      exact ih e he h
  induction e using Expr.tree_induction generalizing t with
  | word w =>
    obtain rfl := List.mem_singleton.1 h
    simp
  | access target operator member ih =>
    rcases List.mem_append.1 h with h | h
    · exact ih h
    · simp only [List.mem_cons, List.not_mem_nil, or_false] at h
      rcases h with rfl | rfl <;> simp
  | assign left operator right ihl ihr =>
    rcases List.mem_append.1 h with h | h
    · exact ihl h
    rcases List.mem_cons.1 h with rfl | h
    · simp
    · exact ihr h
  | call function args ih =>
    simp only [tokens, List.mem_cons, List.mem_append, List.not_mem_nil, or_false] at h
    rcases h with rfl | rfl | h | rfl
    · simp
    · simp
    · exact items_mem ih h
    · simp
  | clause value ih =>
    rcases List.mem_cons.1 h with rfl | h
    · simp
    · exact ih h
  | sequence items ih => exact items_mem ih h

namespace Sentence

variable {t x : String} {ts : List Token}

/-- A line that begins like an initialization is one. -/
theorem initialization_iff :
    Sentence (.word t :: .gap :: .word x :: .gap :: .gives :: (ts ++ [.terminator])) ↔
      IsWord t ∧ IsWord x ∧ Derives .expression ts := by
  constructor
  · intro h
    generalize heq : Token.word t :: .gap :: .word x :: .gap :: .gives :: (ts ++ [.terminator]) = us
      at h
    cases h with
    | declaration _ _ => simp at heq
    | initialization ht hx hts =>
      simp only [List.cons.injEq, Token.word.injEq, true_and] at heq
      obtain ⟨rfl, rfl, heq⟩ := heq
      obtain rfl := List.append_cancel_right heq
      exact ⟨ht, hx, hts⟩
    | effect hts =>
      have hprefix : Token.word t :: .gap :: .word x :: .gap :: .gives :: ts = _ :=
        List.append_cancel_right heq
      rw [← hprefix] at hts
      exact absurd hts Derives.ne_word_cons_gap
    | returnNothing => cases heq
    | returnValue _ => cases heq
  · rintro ⟨ht, hx, hts⟩
    exact .initialization ht hx hts

/-- A line without gaps and returns is an expression. -/
theorem effect_iff (hts : ∀ t ∈ ts, t ≠ .gap ∧ t ≠ .ret) :
    Sentence (ts ++ [.terminator]) ↔ Derives .expression ts := by
  constructor
  · intro h
    generalize heq : ts ++ [Token.terminator] = us at h
    have hmem : ∀ t ∈ us, t ≠ .terminator → t ≠ .gap ∧ t ≠ .ret := by
      intro t ht hne
      rw [← heq, List.mem_append, List.mem_singleton] at ht
      exact hts t (ht.resolve_right hne)
    cases h with
    | declaration _ _ => exact absurd rfl (hmem .gap (by simp) nofun).1
    | initialization _ _ _ => exact absurd rfl (hmem .gap (by simp) nofun).1
    | effect hd => exact List.append_cancel_right heq ▸ hd
    | returnNothing => exact absurd rfl (hmem .ret (by simp) nofun).2
    | returnValue _ => exact absurd rfl (hmem .ret (by simp) nofun).2
  · exact .effect

/-- A line that begins with a return and a gap returns an expression. -/
theorem returnValue_iff :
    Sentence (.ret :: .gap :: (ts ++ [.terminator])) ↔ Derives .expression ts := by
  constructor
  · intro h
    generalize heq : Token.ret :: .gap :: (ts ++ [.terminator]) = us at h
    cases h with
    | effect hts =>
      have hprefix : Token.ret :: .gap :: ts = _ := List.append_cancel_right heq
      rw [← hprefix] at hts
      exact absurd hts Derives.ne_ret_cons
    | returnValue hts =>
      simp only [List.cons.injEq, true_and] at heq
      obtain rfl := List.append_cancel_right heq
      exact hts
    | _ => cases heq
  · exact .returnValue

end Sentence

theorem IsWord.space_not_mem {w : String} (h : IsWord w) : ' ' ∉ w.toList := by
  intro hmem
  have hspace := h.2 ' ' hmem
  cases hspace

/-- A phrase ends with a text that shows and has no space. -/
theorem Derives.exists_last {p : Phrase} {ts : List Token} (h : Derives p ts) :
    ∃ us t, ts = us ++ [t] ∧ t.text ≠ "" ∧ ' ' ∉ t.text.toList := by
  induction h with
  | word hw => exact ⟨[], _, rfl, hw.1, hw.space_not_mem⟩
  | @access ts w _ hw _ => exact ⟨ts ++ [.member "."], .word w, by simp, hw.1, hw.space_not_mem⟩
  | @callNothing f _ => exact ⟨[.word f, .opening], .closing, rfl, by decide, by decide⟩
  | @call f ts _ _ _ => exact ⟨.word f :: .opening :: ts, .closing, rfl, by decide, by decide⟩
  | operand _ ih => exact ih
  | @assign ts _ op _ _ _ _ ih =>
    obtain ⟨us, t, rfl, ht⟩ := ih
    exact ⟨ts ++ .operator op :: us, t, by simp, ht⟩
  | last _ ih => exact ih
  | @more ts _ _ _ _ ih =>
    obtain ⟨us, t, rfl, ht⟩ := ih
    exact ⟨ts ++ .comma :: us, t, by simp, ht⟩

/-- No sentence has a space before its end. -/
theorem Sentence.written_ne {ts : List Token} (h : Sentence ts) (u : String) :
    written ts ≠ u ++ " ;" := by
  have hlast : ∃ us t, ts = us ++ [t, .terminator] ∧ t.text ≠ "" ∧ ' ' ∉ t.text.toList := by
    cases h with
    | @declaration t x _ hx => exact ⟨[.word t, .gap], .word x, rfl, hx.1, hx.space_not_mem⟩
    | @initialization t x _ _ _ hts =>
      obtain ⟨us, t', rfl, ht⟩ := hts.exists_last
      exact ⟨.word t :: .gap :: .word x :: .gap :: .gives :: us, t', by simp, ht⟩
    | effect hts =>
      obtain ⟨us, t, rfl, ht⟩ := hts.exists_last
      exact ⟨us, t, by simp, ht⟩
    | returnNothing => exact ⟨[], .ret, rfl, by decide, by decide⟩
    | returnValue hts =>
      obtain ⟨us, t, rfl, ht⟩ := hts.exists_last
      exact ⟨.ret :: .gap :: us, t, by simp, ht⟩
  obtain ⟨us, t, rfl, hne, hspace⟩ := hlast
  intro heq
  have hend : written us ++ t.text = u ++ " " := by
    have hwritten : written (us ++ [t, .terminator]) = written us ++ t.text ++ ";" := by
      simp [Token.text, String.append_assoc]
    have hu : u ++ " ;" = u ++ " " ++ ";" := by
      rw [String.append_assoc]
      rfl
    rw [hwritten, hu] at heq
    exact (String.append_left_inj ";").1 heq
  -- the last character is a space, and it belongs to the last text
  have hchars := congrArg (fun s => s.toList.getLast?) hend
  simp only [String.toList_append, List.getLast?_append] at hchars
  rw [Option.or_of_isSome (by simpa using hne)] at hchars
  exact hspace (List.mem_of_getLast? hchars)

end Shading.Target
