import Shading.Proofs.Legible

/-!
# Readability

A line tells which statement it is, also where a declaration and an assignment begin alike, and a
source text tells its lines.

* `LegibleStatement.text_injective`: a line is read in one way.
* `LegibleSignature.text_injective`: and so is a signature.
* `LegibleFunction.text_injective`: **a source text is that of one function.**
-/

namespace Shading.Target

/-- The statements that can be read. -/
inductive LegibleStatement : Statement → Prop where
  | declare {t x : String} {value : Option Expr} :
    IsIdentifier t → IsIdentifier x → (∀ e ∈ value, Legible .loose e) →
    LegibleStatement (.declare t x value)
  | effect {e : Expr} : Legible .loose e → LegibleStatement (.effect e)
  | ret {value : Option Expr} : (∀ e ∈ value, Legible .loose e) → LegibleStatement (.ret value)

/-- A value behind a word, with the sign before it; there may be none. -/
def behind (sign : List Char) : Option Expr → List Char
  | none => []
  | some e => ' ' :: (sign ++ e.chars)

theorem stops_behind (sign : List Char) (value : Option Expr) :
    Stops isDivider (behind sign value) := by
  cases value with
  | none => exact stops_nil
  | some e => exact stops_cons.2 rfl

theorem behind_injective {sign : List Char} {value value' : Option Expr}
    (h : ∀ e ∈ value, Legible .loose e) (h' : ∀ e ∈ value', Legible .loose e)
    (heq : behind sign value = behind sign value') : value = value' := by
  cases value with
  | none =>
    cases value' with
    | none => rfl
    | some e' => cases heq
  | some e =>
    cases value' with
    | none => cases heq
    | some e' =>
      have hchars := List.append_cancel_left (List.cons.inj heq).2
      rw [← List.append_nil e.chars, ← List.append_nil e'.chars] at hchars
      obtain ⟨rfl, -⟩ := (h e rfl).text_append_inj (h' e' rfl) stops_nil stops_nil hchars
      rfl

namespace Statement

/-- What a statement says before its semicolon, as characters. -/
def chars : Statement → List Char
  | declare t x value => t.toList ++ ' ' :: (x.toList ++ behind ['=', ' '] value)
  | effect e => e.chars
  | ret value => "return".toList ++ behind [] value

theorem toList_text (s : Statement) : s.text.toList = s.chars ++ [';'] := by
  rcases s with ⟨t, x, _ | e⟩ | e | _ | e
  · simp [text, chars, behind]
  · simp [text, chars, behind, Expr.text, Expr.chars]
  · simp [text, chars, Expr.chars]
  · rfl
  · simp [text, chars, behind, Expr.chars]

end Statement

namespace LegibleStatement

variable {s s' : Statement}

/-- Only the expression itself reads like it. In a declaration the type would be an operand and
the variable an operator, and the rest would be an expression behind one operator too many. -/
theorem eq_effect {e : Expr} (h : LegibleStatement s) (he : Legible .loose e)
    (heq : s.chars = e.chars) : s = .effect e := by
  cases h with
  | @declare t x value ht hx hvalue =>
    -- the variable is the operator of the first assignment
    obtain ⟨_, o, y, -, ho, hy, hbehind⟩ := he.exists_assign_of_space ht.chunk heq.symm
    obtain ⟨-, hrest⟩ := hx.chunk.append_inj ho (stops_behind _ _) (by simp [isDivider]) hbehind
    cases value with
    | none => cases hrest
    | some v =>
      have hgives : y.chars = "=".toList ++ ' ' :: v.chars := (List.cons.inj hrest).2.symm
      exact absurd hgives (hy.ne_operator_append (hvalue v rfl) (by decide))
  | @effect e' he' =>
    have hchars : e'.chars ++ [] = e.chars ++ [] := congrArg (· ++ []) heq
    obtain ⟨rfl, -⟩ := he'.text_append_inj he stops_nil stops_nil hchars
    rfl
  | @ret value hvalue =>
    cases value with
    | none => exact absurd heq.symm he.ne_return
    | some v => exact absurd heq.symm (he.ne_operator_append (hvalue v rfl) (by decide))

/-- A declaration does not begin with the word for a return. -/
theorem declare_ne_ret {t x : String} {value value' : Option Expr} (ht : IsIdentifier t) :
    (Statement.declare t x value).chars ≠ (Statement.ret value').chars := by
  intro heq
  have hreturn : IsChunk "return" := by decide
  obtain ⟨hword, -⟩ := ht.chunk.append_inj hreturn (by simp [isDivider]) (stops_behind _ _) heq
  exact ht.ne_return hword

/-- **A line is read in one way.** -/
theorem text_injective (h : LegibleStatement s) (h' : LegibleStatement s')
    (heq : s.text = s'.text) : s = s' := by
  have hchars : s.chars = s'.chars := by
    have htext := congrArg String.toList heq
    rw [s.toList_text, s'.toList_text] at htext
    exact List.append_cancel_right htext
  cases h with
  | effect he => exact (h'.eq_effect he hchars.symm).symm
  | declare ht hx hvalue =>
    cases h' with
    | effect he' => exact (declare ht hx hvalue).eq_effect he' hchars
    | declare ht' hx' hvalue' =>
      obtain ⟨rfl, hrest⟩ :=
        ht.chunk.append_inj ht'.chunk (by simp [isDivider]) (by simp [isDivider]) hchars
      obtain ⟨rfl, hsame⟩ := hx.chunk.append_inj hx'.chunk (stops_behind _ _) (stops_behind _ _)
        (List.cons.inj hrest).2
      rw [behind_injective hvalue hvalue' hsame]
    | ret _ => exact absurd hchars (declare_ne_ret ht)
  | ret hvalue =>
    cases h' with
    | effect he' => exact (ret hvalue).eq_effect he' hchars
    | declare ht' _ _ => exact absurd hchars.symm (declare_ne_ret ht')
    | ret hvalue' => rw [behind_injective hvalue hvalue' (List.append_cancel_left hchars)]

/-- The lines of several statements are read in one way. -/
theorem lines_injective {ss ss' : List Statement} (h : ∀ s ∈ ss, LegibleStatement s)
    (h' : ∀ s ∈ ss', LegibleStatement s)
    (heq : ss.map (Statement.line "") = ss'.map (Statement.line "")) : ss = ss' := by
  induction ss generalizing ss' with
  | nil => exact (List.map_eq_nil_iff.1 heq.symm).symm
  | cons s ss ih =>
    cases ss' with
    | nil => cases heq
    | cons s' ss' =>
      rw [List.forall_mem_cons] at h h'
      obtain ⟨hline, hrest⟩ := List.cons.inj heq
      rw [Statement.line, Statement.line, String.empty_append, String.empty_append] at hline
      rw [h.1.text_injective h'.1 hline, ih h.2 h'.2 hrest]

theorem newline_not_mem (h : LegibleStatement s) : '\n' ∉ s.text.toList := by
  have value_not_mem (sign : List Char) (hsign : '\n' ∉ sign) {value : Option Expr}
      (hvalue : ∀ e ∈ value, Legible .loose e) : '\n' ∉ behind sign value := by
    cases value with
    | none => exact List.not_mem_nil
    | some e => simp [behind, hsign, (hvalue e rfl).newline_not_mem]
  rw [s.toList_text]
  cases h with
  | declare ht hx hvalue =>
    have hrest := value_not_mem ['=', ' '] (by decide) hvalue
    simp [Statement.chars, ht.chunk.newline_not_mem, hx.chunk.newline_not_mem, hrest]
  | effect he => simp [Statement.chars, he.newline_not_mem]
  | ret hvalue =>
    have hrest := value_not_mem [] (by decide) hvalue
    simp [Statement.chars, hrest]

end LegibleStatement

/-- The signatures that can be read. -/
structure LegibleSignature (s : Signature) : Prop where
  returnType : IsIdentifier s.returnType
  name : IsIdentifier s.name
  parameters : ∀ p ∈ s.parameters, IsIdentifier p.type ∧ IsIdentifier p.name

namespace LegibleSignature

variable {s s' : Signature}

theorem parameter_text_append_inj {p p' : Parameter} {r r' : List Char}
    (hp : IsIdentifier p.type ∧ IsIdentifier p.name)
    (hp' : IsIdentifier p'.type ∧ IsIdentifier p'.name) (hr : Stops Binding.loose.stop r)
    (hr' : Stops Binding.loose.stop r') (heq : p.text.toList ++ r = p'.text.toList ++ r') :
    p = p' ∧ r = r' := by
  obtain ⟨type, name⟩ := p
  obtain ⟨type', name'⟩ := p'
  simp only [Parameter.text, String.toList_append, List.append_assoc] at heq
  obtain ⟨rfl, hrest⟩ :=
    hp.1.chunk.append_inj hp'.1.chunk (by simp [isDivider]) (by simp [isDivider]) heq
  obtain ⟨rfl, rfl⟩ := hp.2.chunk.append_inj hp'.2.chunk hr.isDivider hr'.isDivider
    (List.append_cancel_left hrest)
  exact ⟨rfl, rfl⟩

theorem parameter_text_exists_cons {p : Parameter}
    (hp : IsIdentifier p.type ∧ IsIdentifier p.name) :
    ∃ c cs, p.text.toList = c :: cs ∧ isDivider c = false := by
  obtain ⟨c, cs, hc, hdiv⟩ := hp.1.chunk.exists_cons hp.1.ne_empty
  exact ⟨c, cs ++ (" ".toList ++ p.name.toList), by simp [Parameter.text, hc], hdiv⟩

/-- A signature is read in one way. -/
theorem text_injective (h : LegibleSignature s) (h' : LegibleSignature s')
    (heq : s.text = s'.text) : s = s' := by
  obtain ⟨type, name, ps⟩ := s
  obtain ⟨type', name', ps'⟩ := s'
  have htext := congrArg String.toList heq
  simp only [Signature.text, Signature.parameterText, String.toList_append,
    List.append_assoc] at htext
  obtain ⟨rfl, hname⟩ := h.returnType.chunk.append_inj h'.returnType.chunk (by simp [isDivider])
    (by simp [isDivider]) htext
  obtain ⟨rfl, hrow⟩ := h.name.chunk.append_inj h'.name.chunk (by simp [isDivider])
    (by simp [isDivider]) (List.append_cancel_left hname)
  have hparameters : (commaSeparated (ps.map Parameter.text)).toList ++ [')'] =
      (commaSeparated (ps'.map Parameter.text)).toList ++ [')'] := List.append_cancel_left hrow
  obtain ⟨rfl, -⟩ := commaSeparated_append_inj
    (fun p hp p' hp' => parameter_text_append_inj (h.parameters p hp) (h'.parameters p' hp'))
    (fun p hp => parameter_text_exists_cons (h.parameters p hp))
    (fun p hp => parameter_text_exists_cons (h'.parameters p hp)) hparameters
  rfl

theorem newline_not_mem (h : LegibleSignature s) : '\n' ∉ s.text.toList := by
  have hps : '\n' ∉ (Signature.parameterText s.parameters).toList := by
    refine newline_not_mem_commaSeparated fun t ht => ?_
    obtain ⟨p, hp, rfl⟩ := List.mem_map.1 ht
    obtain ⟨htype, hname⟩ := h.parameters p hp
    simp [Parameter.text, htype.chunk.newline_not_mem, hname.chunk.newline_not_mem]
  simp [Signature.text, h.returnType.chunk.newline_not_mem, h.name.chunk.newline_not_mem, hps]

end LegibleSignature

/-- The functions that can be read. -/
structure LegibleFunction (f : Function) : Prop where
  signature : LegibleSignature f.signature
  body : ∀ s ∈ f.body, LegibleStatement s

namespace LegibleFunction

variable {f f' : Function}

/-- The lines can be told apart. -/
theorem lines_eq (h : LegibleFunction f) (h' : LegibleFunction f')
    (heq : f.text "" = f'.text "") : f.lines "" = f'.lines "" := by
  have splits {f : Function} (h : LegibleFunction f) :
      (['\n'].intercalate ((f.lines "").map String.toList)).splitOn '\n' =
        (f.lines "").map String.toList := by
    refine List.splitOn_intercalate '\n' (fun l hl => ?_) (by simp [Function.lines])
    obtain ⟨line, hline, rfl⟩ := List.mem_map.1 hl
    simp only [Function.lines, List.mem_cons, List.mem_append, List.mem_map, List.not_mem_nil,
      or_false] at hline
    rcases hline with rfl | rfl | ⟨s, hs, rfl⟩ | rfl
    · exact h.signature.newline_not_mem
    · decide
    · rw [Statement.line, String.empty_append]
      exact (h.body s hs).newline_not_mem
    · decide
  -- no line has a line end in itself, so the text splits into them again
  have htext := congrArg String.toList ((String.append_left_inj "\n").1 heq)
  rw [String.toList_intercalate, String.toList_intercalate] at htext
  have hlines := congrArg (List.splitOn '\n') htext
  rw [show "\n".toList = ['\n'] from rfl, splits h, splits h'] at hlines
  exact (List.map_inj_right fun _ _ => String.toList_injective).1 hlines

/-- **A source text is that of one function.** -/
theorem text_injective (h : LegibleFunction f) (h' : LegibleFunction f')
    (heq : f.text "" = f'.text "") : f = f' := by
  have hlines := h.lines_eq h' heq
  obtain ⟨signature, body⟩ := f
  obtain ⟨signature', body'⟩ := f'
  simp only [Function.lines, List.cons.injEq, true_and] at hlines
  obtain ⟨hsignature, hbody⟩ := hlines
  have hsignatures : signature = signature' := h.signature.text_injective h'.signature hsignature
  have hbodies : body = body' :=
    LegibleStatement.lines_injective h.body h'.body (List.append_cancel_right hbody)
  rw [hsignatures, hbodies]

end LegibleFunction

end Shading.Target
