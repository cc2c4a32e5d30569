import Shading.Target.Printer

/-!
# Sentences of the shading language

The tokens that a statement is written with, and the grammar that a line has to follow. An
expression is an operand, or an operand, an operator and an expression; an operand is a word, a
member of an operand or a call.

* `Statement.text_eq_written`: a statement is written as its tokens, one after the other.
* `Derives`, `Sentence`: the rules of the grammar.
* `Derives.append_assign`, `Derives.arguments_separated`, `Derives.call_separated`: **phrases are
  built from phrases as expressions are from their parts.**
-/

namespace Shading.Target

/-- What a line consists of. -/
inductive Token where
  | word (text : String)
  /-- The operator between an operand and its member. -/
  | member (operator : String)
  | operator (text : String)
  /-- The sign before the first value of a variable. -/
  | gives
  | gap
  | comma
  | opening
  | closing
  | ret
  | terminator
deriving DecidableEq

/-- A token as text, with the spaces that belong to it. -/
def Token.text : Token → String
  | word text => text
  | member op => op
  | operator text => " " ++ text ++ " "
  | gives => "= "
  | gap => " "
  | comma => ", "
  | opening => "("
  | closing => ")"
  | ret => "return"
  | terminator => ";"

/-- Tokens as text. -/
def written : List Token → String
  | [] => ""
  | t :: ts => t.text ++ written ts

@[simp] theorem written_nil : written [] = "" := rfl

@[simp] theorem written_cons (t : Token) (ts : List Token) :
    written (t :: ts) = t.text ++ written ts :=
  rfl

@[simp] theorem written_append (ts ts' : List Token) :
    written (ts ++ ts') = written ts ++ written ts' := by
  induction ts with
  | nil => simp
  | cons t ts ih => simp [ih, String.append_assoc]

/-- Several phrases with commas between them. -/
def separated : List (List Token) → List Token
  | [] => []
  | [ts] => ts
  | ts :: tss => ts ++ .comma :: separated tss

theorem separated_cons_cons (ts ts' : List Token) (tss : List (List Token)) :
    separated (ts :: ts' :: tss) = ts ++ .comma :: separated (ts' :: tss) := rfl

theorem written_separated (tss : List (List Token)) :
    written (separated tss) = commaSeparated (tss.map written) := by
  induction tss with
  | nil => rfl
  | cons ts tss ih =>
    cases tss with
    | nil => simp [separated, commaSeparated]
    | cons ts' tss =>
      rw [separated_cons_cons, written_append, written_cons, ih]
      simp [commaSeparated, String.intercalate_cons_cons, Token.text, String.append_assoc]

section Induction

set_option linter.unusedSectionVars false

variable {P : Expr → Prop} (word : ∀ text, P (.word text))
  (access : ∀ target operator member, P target → P (.access target operator member))
  (assign : ∀ left operator right, P left → P right → P (.assign left operator right))
  (call : ∀ function args, (∀ e ∈ args, P e) → P (.call function args))
  (clause : ∀ value, P value → P (.clause value))
  (sequence : ∀ items, (∀ e ∈ items, P e) → P (.sequence items))

include word access assign call clause sequence

mutual

/-- Induction over the expressions of the shading language. -/
@[elab_as_elim]
theorem Expr.tree_induction : ∀ e, P e
  | .word text => word text
  | .access target operator member =>
    access target operator member (Expr.tree_induction target)
  | .assign left operator right =>
    assign left operator right (Expr.tree_induction left) (Expr.tree_induction right)
  | .call function args => call function args (Expr.forall_mem_of_tree args)
  | .clause value => clause value (Expr.tree_induction value)
  | .sequence items => sequence items (Expr.forall_mem_of_tree items)

theorem Expr.forall_mem_of_tree : ∀ es : List Expr, ∀ e ∈ es, P e
  | [] => fun _ h => nomatch h
  | e :: es => fun e' h => by
    rcases List.mem_cons.1 h with h | h
    · exact h ▸ Expr.tree_induction e
    · exact Expr.forall_mem_of_tree es e' h

end

end Induction

mutual

/-- The tokens of an expression. -/
def Expr.tokens : Expr → List Token
  | .word text => [.word text]
  | .access target operator member => target.tokens ++ [.member operator, .word member]
  | .assign left operator right => left.tokens ++ .operator operator :: right.tokens
  | .call function args =>
    .word function :: .opening :: (separated (Expr.tokenLists args) ++ [.closing])
  | .clause value => .gives :: value.tokens
  | .sequence items => separated (Expr.tokenLists items)
termination_by structural e => e

/-- The tokens of several expressions. -/
def Expr.tokenLists : List Expr → List (List Token)
  | [] => []
  | e :: es => e.tokens :: Expr.tokenLists es
termination_by structural es => es

end

theorem Expr.tokenLists_eq_map (es : List Expr) : tokenLists es = es.map tokens := by
  induction es with
  | nil => rfl
  | cons e es ih => rw [tokenLists, ih, List.map_cons]

theorem Expr.texts_eq_map_written {es : List Expr} (h : ∀ e ∈ es, e.text = written e.tokens) :
    Expr.texts es = (Expr.tokenLists es).map written := by
  rw [texts_eq_map, tokenLists_eq_map, List.map_map]
  exact List.map_congr_left h

/-- An expression is written as its tokens. -/
theorem Expr.text_eq_written (e : Expr) : e.text = written e.tokens := by
  induction e using Expr.tree_induction with
  | word w => simp [text, tokens, Token.text]
  | access target operator member ih =>
    simp [text, tokens, ih, Token.text, String.append_assoc]
  | assign left operator right ihl ihr =>
    simp [text, tokens, ihl, ihr, Token.text, String.append_assoc]
  | call function args ih =>
    simp [text, tokens, texts_eq_map_written ih, written_separated, Token.text, String.append_assoc]
  | clause value ih => simp [text, tokens, ih, Token.text]
  | sequence items ih => simp [text, tokens, texts_eq_map_written ih, written_separated]

/-- What is written shows a token. -/
theorem Expr.tokens_ne_nil {e : Expr} (h : e.text ≠ "") : e.tokens ≠ [] := by
  intro hnil
  rw [text_eq_written, hnil] at h
  exact h rfl

/-- The tokens of a statement. -/
def Statement.tokens : Statement → List Token
  | declare type identifier none => [.word type, .gap, .word identifier, .terminator]
  | declare type identifier (some value) =>
    .word type :: .gap :: .word identifier :: .gap :: .gives :: (value.tokens ++ [.terminator])
  | effect value => value.tokens ++ [.terminator]
  | ret none => [.ret, .terminator]
  | ret (some value) => .ret :: .gap :: (value.tokens ++ [.terminator])

/-- A statement is written as its tokens. -/
theorem Statement.text_eq_written (s : Statement) : s.text = written s.tokens := by
  rcases s with ⟨type, x, _ | value⟩ | value | _ | value
  · simp [text, tokens, Token.text, String.append_assoc]
  · simp [text, tokens, Token.text, Expr.text, Expr.text_eq_written, String.append_assoc]
  · simp [text, tokens, Token.text, Expr.text_eq_written]
  · rfl
  · -- the space behind the keyword is a token of its own
    have hret : "return " = "return" ++ " " := rfl
    rw [text, tokens, written_cons, written_cons, written_append, Expr.text_eq_written, hret,
      String.append_assoc, String.append_assoc]
    rfl

/-- The characters that no word contains. -/
def isPunctuation (c : Char) : Bool :=
  c.isWhitespace || c == ',' || c == ';' || c == '(' || c == ')'

/-- A word, or an operator of an assignment: a text that shows, without spaces and punctuation. -/
def IsWord (w : String) : Prop :=
  w ≠ "" ∧ ∀ c ∈ w.toList, isPunctuation c = false

instance (w : String) : Decidable (IsWord w) :=
  decidable_of_iff (w ≠ "" ∧ w.toList.any isPunctuation = false) (by simp [IsWord])

/-- What the grammar has rules for, below a statement. -/
inductive Phrase where
  | operand
  | expression
  | arguments
deriving DecidableEq

/-- The rules of the grammar for expressions and their parts. -/
inductive Derives : Phrase → List Token → Prop where
  | word {w : String} : IsWord w → Derives .operand [.word w]
  | access {ts : List Token} {w : String} :
    Derives .operand ts → IsWord w → Derives .operand (ts ++ [.member ".", .word w])
  | callNothing {f : String} : IsWord f → Derives .operand [.word f, .opening, .closing]
  | call {f : String} {ts : List Token} :
    IsWord f → Derives .arguments ts → Derives .operand (.word f :: .opening :: (ts ++ [.closing]))
  | operand {ts : List Token} : Derives .operand ts → Derives .expression ts
  | assign {ts ts' : List Token} {op : String} :
    Derives .operand ts → IsWord op → Derives .expression ts' →
    Derives .expression (ts ++ .operator op :: ts')
  | last {ts : List Token} : Derives .expression ts → Derives .arguments ts
  | more {ts ts' : List Token} :
    Derives .expression ts → Derives .arguments ts' → Derives .arguments (ts ++ .comma :: ts')

/-- The rules of the grammar for statements. -/
inductive Sentence : List Token → Prop where
  | declaration {t x : String} :
    IsWord t → IsWord x → Sentence [.word t, .gap, .word x, .terminator]
  | initialization {t x : String} {ts : List Token} :
    IsWord t → IsWord x → Derives .expression ts →
    Sentence (.word t :: .gap :: .word x :: .gap :: .gives :: (ts ++ [.terminator]))
  | effect {ts : List Token} : Derives .expression ts → Sentence (ts ++ [.terminator])
  | returnNothing : Sentence [.ret, .terminator]
  | returnValue {ts : List Token} :
    Derives .expression ts → Sentence (.ret :: .gap :: (ts ++ [.terminator]))

namespace Derives

variable {p : Phrase} {ts ts' : List Token} {w op : String}

/-- A member can be added behind every phrase. -/
theorem append_member (h : Derives p ts) (hw : IsWord w) :
    Derives p (ts ++ [.member ".", .word w]) := by
  induction h with
  | word hw' => exact .access (.word hw') hw
  | access h hw' _ => exact .access (.access h hw') hw
  | callNothing hf => exact .access (.callNothing hf) hw
  | call hf h _ => exact .access (.call hf h) hw
  | operand _ ih => exact .operand ih
  | assign h hop _ _ ih =>
    rw [List.append_assoc, List.cons_append]
    exact .assign h hop ih
  | last _ ih => exact .last ih
  | more h _ _ ih =>
    rw [List.append_assoc, List.cons_append]
    exact .more h ih

/-- Assignments nest to the right, so an assignment can be put before an expression. -/
theorem append_assign (h : Derives .expression ts) (hop : IsWord op)
    (h' : Derives .expression ts') : Derives .expression (ts ++ .operator op :: ts') := by
  generalize hp : Phrase.expression = p at h
  induction h with
  | operand h _ => exact .assign h hop h'
  | assign h hop₁ _ _ ih =>
    rw [List.append_assoc, List.cons_append]
    exact .assign h hop₁ (ih rfl)
  | _ => cases hp

theorem append_comma (h : Derives .arguments ts) (h' : Derives .arguments ts') :
    Derives .arguments (ts ++ .comma :: ts') := by
  generalize hp : Phrase.arguments = p at h
  induction h with
  | last h _ => exact .more h h'
  | more h _ _ ih =>
    rw [List.append_assoc, List.cons_append]
    exact .more h (ih rfl)
  | _ => cases hp

/-- An operator between arguments joins the last ones before it and the first one behind it. -/
theorem arguments_append_assign (h : Derives .arguments ts) (hop : IsWord op)
    (h' : Derives .arguments ts') : Derives .arguments (ts ++ .operator op :: ts') := by
  generalize hp : Phrase.arguments = p at h
  induction h with
  | last h _ =>
    cases h' with
    | last h' => exact .last (h.append_assign hop h')
    | more h₁ h₂ =>
      rw [← List.cons_append, ← List.append_assoc]
      exact .more (h.append_assign hop h₁) h₂
  | more h _ _ ih =>
    rw [List.append_assoc, List.cons_append]
    exact .more h (ih rfl)
  | _ => cases hp

theorem arguments_separated {tss : List (List Token)} (hne : tss ≠ [])
    (h : ∀ ts ∈ tss, Derives .arguments ts) : Derives .arguments (separated tss) := by
  induction tss with
  | nil => exact (hne rfl).elim
  | cons ts tss ih =>
    cases tss with
    | nil => exact h ts List.mem_cons_self
    | cons ts' tss =>
      rw [separated_cons_cons]
      refine (h ts List.mem_cons_self).append_comma (ih (List.cons_ne_nil _ _) fun ts h' => ?_)
      exact h ts (List.mem_cons_of_mem _ h')

/-- A call of whatever arguments there are. -/
theorem call_separated {f : String} {tss : List (List Token)} (hf : IsWord f)
    (h : ∀ ts ∈ tss, Derives .arguments ts) :
    Derives .operand (.word f :: .opening :: (separated tss ++ [.closing])) := by
  cases tss with
  | nil => exact .callNothing hf
  | cons ts tss => exact .call hf (arguments_separated (List.cons_ne_nil _ _) h)

end Derives

end Shading.Target
