import Mathlib
import Shading.Proofs.Account

/-!
# Delimiters

What a text is made of gives each of its delimiters a number: a function has a semicolon for each of
its statements, a pair of parentheses for each of its calls and a comma for each two neighbours in a
row, and what more there is of them is in its atoms.

* `Definition.count_glue`: **what is put around the atoms**, delimiter by delimiter.
* `Context.Delimited`: what the delimiters of a source text count.
* `Context.splitOn_text`: where no atom has a line end in it, a text splits into its lines.
* `Context.emitIndented_accounted`: **a source text is made of its atoms and of what is put around
  them**, its delimiters can be counted, and each statement has a line of its own.
-/

namespace Shading

namespace Target

/-- Spaces apart, nothing but commas is put between items. -/
theorem count_separators {c : Char} (hspace : c ≠ ' ') (n : ℕ) :
    (separators n).count c = (n - 1) * [','].count c := by
  have hcomma : [',', ' '].count c = [','].count c := by
    simp [List.count_cons, hspace.symm]
  rw [separators, List.count_flatten, List.map_replicate, List.sum_replicate_nat, hcomma]

namespace Function

/-- A line end in a line would be one more than there are lines. -/
theorem count_newline_lines (ls : List String) :
    (ls.flatMap fun l => l.toList ++ ['\n']).count '\n' =
      (ls.flatMap String.toList).count '\n' + ls.length := by
  induction ls with
  | nil => rfl
  | cons l ls ih =>
    simp only [List.flatMap_cons, List.count_append, List.count_singleton_self, List.length_cons]
    omega

/-- Lines without a line end in them are told by their ends. -/
theorem splitOn_lines {ls : List String} (h : ∀ l ∈ ls, '\n' ∉ l.toList) :
    (ls.flatMap fun l => l.toList ++ ['\n']).splitOn '\n' = ls.map String.toList ++ [[]] := by
  induction ls with
  | nil => rfl
  | cons l ls ih =>
    rw [List.forall_mem_cons] at h
    rw [List.flatMap_cons, List.append_assoc, List.singleton_append,
      List.splitOn_append_cons_self_of_not_mem h.1, ih h.2]
    rfl

end Function

end Target

namespace Node

/-- Whether the node is a call or a construction. -/
def isCall : Node → Bool
  | invocation .. | objectCreation .. => true
  | _ => false

/-- The number of commas between the arguments of a node. -/
def divisions : Node → ℕ
  | argumentList _ args | invocation _ _ _ args | objectCreation _ _ _ args => args.length - 1
  | _ => 0

/-- The delimiters that an expression contributes itself. -/
theorem count_glue {c : Char} (hspace : c ≠ ' ') (hsign : c ≠ '=') (n : Node) :
    n.glue.count c = n.isCall.toNat * ['(', ')'].count c + n.divisions * [','].count c := by
  have hseparators (k : ℕ) : (Target.separators k).count c = (k - 1) * [','].count c :=
    Target.count_separators hspace k
  cases n with
  | assignment | initializer => simp [glue, isCall, divisions, hspace.symm, hsign.symm]
  | argumentList _ args => simp only [glue, isCall, divisions, hseparators, Bool.toNat_false]; omega
  | invocation _ _ _ args | objectCreation _ _ _ args =>
    show ('(' :: (Target.separators args.length ++ [')'])).count c =
      1 * ['(', ')'].count c + (args.length - 1) * [','].count c
    rw [← hseparators]
    simp only [List.count_cons, List.count_append]
    omega
  | _ => simp [glue, isCall, divisions]

/-- A line ends with its semicolon; before it nothing is put but spaces, a sign and a word. -/
theorem exists_lineGlue (n : Node) :
    ∃ cs, n.lineGlue = cs ++ [';', '\n'] ∧ ∀ c ∈ cs, c ∈ " =return".toList := by
  unfold lineGlue
  split
  · exact ⟨[' ', ' ', '=', ' '], rfl, by simp⟩
  · exact ⟨[' '], rfl, by simp⟩
  · exact ⟨"return".toList, rfl, by simp⟩
  · exact ⟨"return ".toList, rfl, by simp⟩
  · exact ⟨[], rfl, by simp⟩

/-- The delimiters that a statement contributes itself. -/
theorem count_lineGlue {c : Char} (hc : c ∉ " =return".toList) (n : Node) :
    n.lineGlue.count c = [';', '\n'].count c := by
  obtain ⟨cs, hglue, hcs⟩ := n.exists_lineGlue
  have hnone : cs.count c = 0 := List.count_eq_zero.2 fun h => hc (hcs c h)
  rw [hglue, List.count_append, hnone, Nat.zero_add]

/-- The delimiters that statements contribute themselves. -/
theorem count_flatMap_lineGlue {c : Char} (hc : c ∉ " =return".toList) (ns : List Node) :
    (ns.flatMap lineGlue).count c = ns.length * [';', '\n'].count c := by
  induction ns with
  | nil => simp
  | cons n ns ih =>
    rw [List.flatMap_cons, List.count_append, ih, count_lineGlue hc, List.length_cons,
      Nat.succ_mul, Nat.add_comm]

/-- The delimiters that expressions contribute themselves. -/
theorem count_flatMap_glue {c : Char} (hspace : c ≠ ' ') (hsign : c ≠ '=') (ns : List Node) :
    (ns.flatMap glue).count c =
      ns.countP isCall * ['(', ')'].count c + (ns.map divisions).sum * [','].count c := by
  induction ns with
  | nil => simp
  | cons n ns ih =>
    rw [List.flatMap_cons, List.count_append, ih, count_glue hspace hsign, List.countP_cons,
      List.map_cons, List.sum_cons, Nat.add_mul, Nat.add_mul]
    cases n.isCall with
    | true => simp only [Bool.toNat_true, if_true]; omega
    | false => simp only [Bool.toNat_false, Bool.false_eq_true, if_false]; omega

end Node

namespace Definition

variable (d : Definition)

/-- The number of calls and constructions that are rendered. -/
def calls : ℕ :=
  d.expressions.countP Node.isCall

/-- The number of commas between the parameters and between the arguments that are rendered. -/
def divisions : ℕ :=
  (d.method.parameters.length - 1) + (d.expressions.map Node.divisions).sum

/-- The delimiters that are put around the atoms. -/
theorem count_glue {c : Char} (hc : c ∉ " =return".toList) :
    d.glue.count c =
      ['(', ')', '\n', '\x7b', '\n', '\x7d', '\n'].count c +
        d.body.statements.length * [';', '\n'].count c + d.calls * ['(', ')'].count c +
        d.divisions * [','].count c := by
  have hspace : c ≠ ' ' := by
    rintro rfl
    exact hc (by decide)
  have hsign : c ≠ '=' := by
    rintro rfl
    exact hc (by decide)
  have hparameters : (d.method.parameters.map fun _ => ' ').count c = 0 := by
    refine List.count_eq_zero.2 fun h => ?_
    obtain ⟨p, -, hp⟩ := List.mem_map.1 h
    exact hspace hp.symm
  have hframe : [' ', '('].count c + [')', '\n', '\x7b', '\n', '\x7d', '\n'].count c =
      ['(', ')', '\n', '\x7b', '\n', '\x7d', '\n'].count c := by
    rw [← List.count_append]
    exact List.count_cons_of_ne hspace.symm
  rw [← hframe, glue, calls, divisions, Nat.add_mul]
  simp only [List.count_append, hparameters, Target.count_separators hspace,
    Node.count_flatMap_lineGlue hc, Node.count_flatMap_glue hspace hsign]
  omega

end Definition

/-- How often a character occurs in the atoms. -/
def Context.within (ctx : Context) (indent : String) (d : Definition) (c : Char) : ℕ :=
  ((ctx.atoms indent d).flatMap String.toList).count c

namespace Context

variable {ctx : Context} {indent text : String} {d : Definition}

/-- What the delimiters of a source text count: its statements, its lines, its calls and its
divisions, apart from the delimiters that the atoms have in them. -/
structure Delimited (ctx : Context) (indent : String) (d : Definition) (text : String) : Prop where
  semicolons : text.toList.count ';' = d.body.statements.length + ctx.within indent d ';'
  newlines : text.toList.count '\n' = d.body.statements.length + 3 + ctx.within indent d '\n'
  openingBraces : text.toList.count '\x7b' = 1 + ctx.within indent d '\x7b'
  closingBraces : text.toList.count '\x7d' = 1 + ctx.within indent d '\x7d'
  openingParentheses : text.toList.count '(' = 1 + d.calls + ctx.within indent d '('
  closingParentheses : text.toList.count ')' = 1 + d.calls + ctx.within indent d ')'
  commas : text.toList.count ',' = d.divisions + ctx.within indent d ','

/-- What a text is made of tells what its delimiters count. -/
theorem Delimited.of_perm
    (h : text.toList.Perm ((ctx.atoms indent d).flatMap String.toList ++ d.glue)) :
    Delimited ctx indent d text := by
  have hcount {c : Char} (hc : c ∉ " =return".toList) :
      text.toList.count c = ctx.within indent d c +
        (['(', ')', '\n', '\x7b', '\n', '\x7d', '\n'].count c +
          d.body.statements.length * [';', '\n'].count c + d.calls * ['(', ')'].count c +
          d.divisions * [','].count c) := by
    rw [List.perm_iff_count.1 h c, List.count_append, d.count_glue hc]
    rfl
  constructor
  all_goals
    rw [hcount (by decide)]
    simp +decide only [List.count_cons, List.count_nil, if_true, if_false]
    omega

/-- Where no atom has a line end in it, each line of a source text is what was put on it. -/
theorem splitOn_text {f : Target.Function} (h : (ctx.lowerFunction d).outcome = .ok f)
    (hatoms : ∀ a ∈ ctx.atoms indent d, '\n' ∉ a.toList) :
    (f.text indent).toList.splitOn '\n' = (f.lines indent).map String.toList ++ [[]] := by
  have hbody := outcome_lowerBody_eq_ok.1 (outcome_lowerFunction_eq_ok.1 h).2
  have hwithin : ctx.within indent d '\n' = 0 := by
    refine List.count_eq_zero.2 fun hmem => ?_
    obtain ⟨a, ha, hnewline⟩ := List.mem_flatMap.1 hmem
    exact hatoms a ha hnewline
  have hlength : (f.lines indent).length = d.body.statements.length + 3 := by
    rw [hbody.length_eq]
    simp [Target.Function.lines]
  have hnewlines := (Delimited.of_perm (perm_lowerFunction h indent)).newlines
  -- the lines use up all line ends, so none is left for the inside of one
  have hnone : ((f.lines indent).flatMap String.toList).count '\n' = 0 := by
    rw [f.toList_text, Target.Function.count_newline_lines, hwithin, hlength] at hnewlines
    omega
  rw [f.toList_text]
  refine Target.Function.splitOn_lines fun l hl hmem => ?_
  exact List.count_eq_zero.1 hnone (List.mem_flatMap.2 ⟨l, hl, hmem⟩)

/-- **A source text is made of its atoms and of what is put around them**: nothing is left out,
nothing is there twice and nothing is added. So its delimiters can be counted, and where no atom has
a line end in it, each statement has a line of its own. -/
theorem emitIndented_accounted (h : (ctx.emitIndented indent d).outcome = .ok text) :
    text.toList.Perm ((ctx.atoms indent d).flatMap String.toList ++ d.glue) ∧
    Delimited ctx indent d text ∧
    ((∀ a ∈ ctx.atoms indent d, '\n' ∉ a.toList) →
      ∃ f, (ctx.lowerFunction d).outcome = .ok f ∧
        List.Forall₂ (fun n s => (ctx.lowerStatement n).outcome = .ok s) d.body.statements f.body ∧
        text.toList.splitOn '\n' = (f.lines indent).map String.toList ++ [[]]) := by
  simp only [emitIndented, Traced.outcome_bind_eq_ok] at h
  obtain ⟨f, hf, htext⟩ := h
  obtain rfl := Except.ok.inj htext
  have hperm := perm_lowerFunction hf indent
  refine ⟨hperm, .of_perm hperm, fun hatoms => ⟨f, hf, ?_, splitOn_text hf hatoms⟩⟩
  exact outcome_lowerBody_eq_ok.1 (outcome_lowerFunction_eq_ok.1 hf).2

/-- A literal with a comma in it is told apart from the commas of the parameters and of the call. -/
theorem comma_of_literal_counted :
    let float : TypeRef := ⟨"float", none⟩
    let max : MethodKey := ⟨"System.Math", "Max"⟩
    let t : SymbolTable := .ofList [("Max", .method "System.Math" "Max")]
    let ctx : Context := ⟨⟨"HLSL", .ofList [("float", "float")], .ofList [(max, "max")]⟩,
      t.byIdentifier, none⟩
    let call : Node := .invocation .unknown (.name .unknown "Max") .unknown
      [⟨.unknown, .name .unknown "a"⟩, ⟨.unknown, .literal .unknown "1,5"⟩]
    let d : Definition := ⟨⟨"Foo", float, [⟨"a", float⟩, ⟨"b", float⟩]⟩,
      .bare [.returnStatement .unknown call]⟩
    let text := "float Foo(float a, float b)\n\x7b\n  return max(a, 1,5);\n\x7d\n"
    (ctx.emitIndented "  " d).outcome = .ok text ∧
      ctx.atoms "  " d =
        ["float", "Foo", "float", "a", "float", "b", "  ", "max", "a", "1,5"] ∧
      text.toList.count ',' = 2 + 1 ∧ text.toList.count '(' = 1 + 1 + 0 ∧
      (text.toList.splitOn '\n').length = 1 + 4 := by
  intro float max t ctx call d text
  have htext : (ctx.emitIndented "  " d).outcome = .ok text := rfl
  have hatoms : ctx.atoms "  " d =
      ["float", "Foo", "float", "a", "float", "b", "  ", "max", "a", "1,5"] := rfl
  have hdivisions : d.divisions = 2 := rfl
  have hcalls : d.calls = 1 := rfl
  have hcomma : ctx.within "  " d ',' = 1 := by
    rw [within, hatoms]
    rfl
  have hparenthesis : ctx.within "  " d '(' = 0 := by
    rw [within, hatoms]
    rfl
  obtain ⟨-, hdelimited, hlines⟩ := emitIndented_accounted htext
  have hcommas := hdelimited.commas
  have hparentheses := hdelimited.openingParentheses
  rw [hdivisions, hcomma] at hcommas
  rw [hcalls, hparenthesis] at hparentheses
  obtain ⟨f, hf, hbody, hsplit⟩ := hlines (by rw [hatoms]; decide)
  have hlength : f.body.length = 1 := hbody.length_eq.symm
  refine ⟨htext, hatoms, hcommas, hparentheses, ?_⟩
  rw [hsplit]
  simp [Target.Function.lines, hlength]

end Context

end Shading
