import Shading.Source.Node

/-!
# Equality of trees

Two trees are equal when they have the same shape, the same texts and the same locations
throughout. Trees nest through lists and optional parts, so the comparison has one function for
each type that a tree passes through.

* `Node.beq_refl`: the comparison of nodes accepts every node beside itself.
* `Node.beq_eq`: it accepts nothing else, so equality of nodes is decidable.
-/

namespace Shading

mutual

/-- Compares two nodes. -/
def Node.beq : Node → Node → Bool
  | .absent, b => match b with
    | .absent => true
    | _ => false
  | .name loc id, b => match b with
    | .name loc' id' => loc == loc' && id == id'
    | _ => false
  | .literal loc token, b => match b with
    | .literal loc' token' => loc == loc' && token == token'
    | _ => false
  | .memberAccess loc target member op, b => match b with
    | .memberAccess loc' target' member' op' =>
      loc == loc' && target.beq target' && member == member' && op == op'
    | _ => false
  | .assignment loc left op right, b => match b with
    | .assignment loc' left' op' right' =>
      loc == loc' && left.beq left' && op == op' && right.beq right'
    | _ => false
  | .argument arg, b => match b with
    | .argument arg' => arg.beq arg'
    | _ => false
  | .argumentList loc args, b => match b with
    | .argumentList loc' args' => loc == loc' && Argument.beqList args args'
    | _ => false
  | .invocation loc callee listLoc args, b => match b with
    | .invocation loc' callee' listLoc' args' =>
      loc == loc' && callee.beq callee' && listLoc == listLoc' && Argument.beqList args args'
    | _ => false
  | .objectCreation loc type listLoc args, b => match b with
    | .objectCreation loc' type' listLoc' args' =>
      loc == loc' && type.beq type' && listLoc == listLoc' && Argument.beqList args args'
    | _ => false
  | .initializer init, b => match b with
    | .initializer init' => init.beq init'
    | _ => false
  | .binary loc left op right, b => match b with
    | .binary loc' left' op' right' =>
      loc == loc' && left.beq left' && op == op' && right.beq right'
    | _ => false
  | .unary loc op operand, b => match b with
    | .unary loc' op' operand' => loc == loc' && op == op' && operand.beq operand'
    | _ => false
  | .conditional loc cond yes no, b => match b with
    | .conditional loc' cond' yes' no' =>
      loc == loc' && cond.beq cond' && yes.beq yes' && no.beq no'
    | _ => false
  | .elementAccess loc target index, b => match b with
    | .elementAccess loc' target' index' => loc == loc' && target.beq target' && index.beq index'
    | _ => false
  | .cast loc type operand, b => match b with
    | .cast loc' type' operand' => loc == loc' && type == type' && operand.beq operand'
    | _ => false
  | .declarator var, b => match b with
    | .declarator var' => var.beq var'
    | _ => false
  | .declaration decl, b => match b with
    | .declaration decl' => decl.beq decl'
    | _ => false
  | .localDeclaration loc decl, b => match b with
    | .localDeclaration loc' decl' => loc == loc' && decl.beq decl'
    | _ => false
  | .expressionStatement loc value, b => match b with
    | .expressionStatement loc' value' => loc == loc' && value.beq value'
    | _ => false
  | .returnStatement loc value, b => match b with
    | .returnStatement loc' value' => loc == loc' && value.beq value'
    | _ => false
  | .block loc body, b => match b with
    | .block loc' body' => loc == loc' && Node.beqList body body'
    | _ => false
  | .ifStatement loc cond body alt, b => match b with
    | .ifStatement loc' cond' body' alt' =>
      loc == loc' && cond.beq cond' && body.beq body' && alt.beq alt'
    | _ => false
  | .whileStatement loc cond body, b => match b with
    | .whileStatement loc' cond' body' => loc == loc' && cond.beq cond' && body.beq body'
    | _ => false
  | .forStatement loc decl cond incs body, b => match b with
    | .forStatement loc' decl' cond' incs' body' =>
      loc == loc' && Declaration.beqOption decl decl' && cond.beq cond' &&
        Node.beqList incs incs' && body.beq body'
    | _ => false
  | .unclassified loc role, b => match b with
    | .unclassified loc' role' => loc == loc' && role == role'
    | _ => false
termination_by structural x => x

/-- Compares two arguments. -/
def Argument.beq : Argument → Argument → Bool
  | ⟨loc, value⟩, ⟨loc', value'⟩ => loc == loc' && value.beq value'
termination_by structural x => x

/-- Compares two initializers. -/
def Initializer.beq : Initializer → Initializer → Bool
  | ⟨loc, value⟩, ⟨loc', value'⟩ => loc == loc' && value.beq value'
termination_by structural x => x

/-- Compares two declarators. -/
def Declarator.beq : Declarator → Declarator → Bool
  | ⟨loc, identifier, init⟩, ⟨loc', identifier', init'⟩ =>
    loc == loc' && identifier == identifier' && Initializer.beqOption init init'
termination_by structural x => x

/-- Compares two declarations. -/
def Declaration.beq : Declaration → Declaration → Bool
  | ⟨loc, type, declarators⟩, ⟨loc', type', declarators'⟩ =>
    loc == loc' && type == type' && Declarator.beqList declarators declarators'
termination_by structural x => x

/-- Compares two lists of nodes. -/
def Node.beqList : List Node → List Node → Bool
  | [], [] => true
  | n :: ns, n' :: ns' => n.beq n' && Node.beqList ns ns'
  | _, _ => false
termination_by structural x => x

/-- Compares two lists of arguments. -/
def Argument.beqList : List Argument → List Argument → Bool
  | [], [] => true
  | a :: as, a' :: as' => a.beq a' && Argument.beqList as as'
  | _, _ => false
termination_by structural x => x

/-- Compares two lists of declarators. -/
def Declarator.beqList : List Declarator → List Declarator → Bool
  | [], [] => true
  | v :: vs, v' :: vs' => v.beq v' && Declarator.beqList vs vs'
  | _, _ => false
termination_by structural x => x

/-- Compares two optional initializers. -/
def Initializer.beqOption : Option Initializer → Option Initializer → Bool
  | none, none => true
  | some i, some i' => i.beq i'
  | _, _ => false
termination_by structural x => x

/-- Compares two optional declarations. -/
def Declaration.beqOption : Option Declaration → Option Declaration → Bool
  | none, none => true
  | some d, some d' => d.beq d'
  | _, _ => false
termination_by structural x => x

end

mutual

theorem Node.beq_refl : ∀ n : Node, n.beq n = true
  | .absent => by simp [Node.beq]
  | .name _ _ => by simp [Node.beq]
  | .literal _ _ => by simp [Node.beq]
  | .memberAccess _ target _ _ => by simp [Node.beq, Node.beq_refl target]
  | .assignment _ left _ right => by simp [Node.beq, Node.beq_refl left, Node.beq_refl right]
  | .argument arg => by simp [Node.beq, Argument.beq_refl arg]
  | .argumentList _ args => by simp [Node.beq, Argument.beqList_refl args]
  | .invocation _ callee _ args => by
    simp [Node.beq, Node.beq_refl callee, Argument.beqList_refl args]
  | .objectCreation _ type _ args => by
    simp [Node.beq, Node.beq_refl type, Argument.beqList_refl args]
  | .initializer init => by simp [Node.beq, Initializer.beq_refl init]
  | .binary _ left _ right => by simp [Node.beq, Node.beq_refl left, Node.beq_refl right]
  | .unary _ _ operand => by simp [Node.beq, Node.beq_refl operand]
  | .conditional _ cond yes no => by
    simp [Node.beq, Node.beq_refl cond, Node.beq_refl yes, Node.beq_refl no]
  | .elementAccess _ target index => by simp [Node.beq, Node.beq_refl target, Node.beq_refl index]
  | .cast _ _ operand => by simp [Node.beq, Node.beq_refl operand]
  | .declarator var => by simp [Node.beq, Declarator.beq_refl var]
  | .declaration decl => by simp [Node.beq, Declaration.beq_refl decl]
  | .localDeclaration _ decl => by simp [Node.beq, Declaration.beq_refl decl]
  | .expressionStatement _ value => by simp [Node.beq, Node.beq_refl value]
  | .returnStatement _ value => by simp [Node.beq, Node.beq_refl value]
  | .block _ body => by simp [Node.beq, Node.beqList_refl body]
  | .ifStatement _ cond body alt => by
    simp [Node.beq, Node.beq_refl cond, Node.beq_refl body, Node.beq_refl alt]
  | .whileStatement _ cond body => by simp [Node.beq, Node.beq_refl cond, Node.beq_refl body]
  | .forStatement _ decl cond incs body => by
    simp [Node.beq, Declaration.beqOption_refl decl, Node.beq_refl cond, Node.beqList_refl incs,
      Node.beq_refl body]
  | .unclassified _ _ => by simp [Node.beq]

theorem Argument.beq_refl : ∀ a : Argument, a.beq a = true
  | ⟨_, value⟩ => by simp [Argument.beq, Node.beq_refl value]

theorem Initializer.beq_refl : ∀ i : Initializer, i.beq i = true
  | ⟨_, value⟩ => by simp [Initializer.beq, Node.beq_refl value]

theorem Declarator.beq_refl : ∀ v : Declarator, v.beq v = true
  | ⟨_, _, init⟩ => by simp [Declarator.beq, Initializer.beqOption_refl init]

theorem Declaration.beq_refl : ∀ d : Declaration, d.beq d = true
  | ⟨_, _, declarators⟩ => by simp [Declaration.beq, Declarator.beqList_refl declarators]

theorem Node.beqList_refl : ∀ ns : List Node, Node.beqList ns ns = true
  | [] => rfl
  | n :: ns => by simp [Node.beqList, Node.beq_refl n, Node.beqList_refl ns]

theorem Argument.beqList_refl : ∀ as : List Argument, Argument.beqList as as = true
  | [] => rfl
  | a :: as => by simp [Argument.beqList, Argument.beq_refl a, Argument.beqList_refl as]

theorem Declarator.beqList_refl : ∀ vs : List Declarator, Declarator.beqList vs vs = true
  | [] => rfl
  | v :: vs => by simp [Declarator.beqList, Declarator.beq_refl v, Declarator.beqList_refl vs]

theorem Initializer.beqOption_refl : ∀ i : Option Initializer, Initializer.beqOption i i = true
  | none => rfl
  | some i => by simp [Initializer.beqOption, Initializer.beq_refl i]

theorem Declaration.beqOption_refl : ∀ d : Option Declaration, Declaration.beqOption d d = true
  | none => rfl
  | some d => by simp [Declaration.beqOption, Declaration.beq_refl d]

end

mutual

theorem Node.beq_eq : ∀ n n' : Node, n.beq n' = true → n = n'
  | .absent, n', h => by
    unfold Node.beq at h
    split at h
    · rfl
    · cases h
  | .name _ _, n', h => by
    unfold Node.beq at h
    split at h
    · simp only [Bool.and_eq_true, beq_iff_eq] at h
      obtain ⟨h₁, h₂⟩ := h
      rw [h₁, h₂]
    · cases h
  | .literal _ _, n', h => by
    unfold Node.beq at h
    split at h
    · simp only [Bool.and_eq_true, beq_iff_eq] at h
      obtain ⟨h₁, h₂⟩ := h
      rw [h₁, h₂]
    · cases h
  | .memberAccess _ target _ _, n', h => by
    unfold Node.beq at h
    split at h
    · simp only [Bool.and_eq_true, beq_iff_eq] at h
      obtain ⟨⟨⟨h₁, h₂⟩, h₃⟩, h₄⟩ := h
      rw [h₁, Node.beq_eq target _ h₂, h₃, h₄]
    · cases h
  | .assignment _ left _ right, n', h => by
    unfold Node.beq at h
    split at h
    · simp only [Bool.and_eq_true, beq_iff_eq] at h
      obtain ⟨⟨⟨h₁, h₂⟩, h₃⟩, h₄⟩ := h
      rw [h₁, Node.beq_eq left _ h₂, h₃, Node.beq_eq right _ h₄]
    · cases h
  | .argument arg, n', h => by
    unfold Node.beq at h
    split at h
    · rw [Argument.beq_eq arg _ h]
    · cases h
  | .argumentList _ args, n', h => by
    unfold Node.beq at h
    split at h
    · simp only [Bool.and_eq_true, beq_iff_eq] at h
      obtain ⟨h₁, h₂⟩ := h
      rw [h₁, Argument.beqList_eq args _ h₂]
    · cases h
  | .invocation _ callee _ args, n', h => by
    unfold Node.beq at h
    split at h
    · simp only [Bool.and_eq_true, beq_iff_eq] at h
      obtain ⟨⟨⟨h₁, h₂⟩, h₃⟩, h₄⟩ := h
      rw [h₁, Node.beq_eq callee _ h₂, h₃, Argument.beqList_eq args _ h₄]
    · cases h
  | .objectCreation _ type _ args, n', h => by
    unfold Node.beq at h
    split at h
    · simp only [Bool.and_eq_true, beq_iff_eq] at h
      obtain ⟨⟨⟨h₁, h₂⟩, h₃⟩, h₄⟩ := h
      rw [h₁, Node.beq_eq type _ h₂, h₃, Argument.beqList_eq args _ h₄]
    · cases h
  | .initializer init, n', h => by
    unfold Node.beq at h
    split at h
    · rw [Initializer.beq_eq init _ h]
    · cases h
  | .binary _ left _ right, n', h => by
    unfold Node.beq at h
    split at h
    · simp only [Bool.and_eq_true, beq_iff_eq] at h
      obtain ⟨⟨⟨h₁, h₂⟩, h₃⟩, h₄⟩ := h
      rw [h₁, Node.beq_eq left _ h₂, h₃, Node.beq_eq right _ h₄]
    · cases h
  | .unary _ _ operand, n', h => by
    unfold Node.beq at h
    split at h
    · simp only [Bool.and_eq_true, beq_iff_eq] at h
      obtain ⟨⟨h₁, h₂⟩, h₃⟩ := h
      rw [h₁, h₂, Node.beq_eq operand _ h₃]
    · cases h
  | .conditional _ cond yes no, n', h => by
    unfold Node.beq at h
    split at h
    · simp only [Bool.and_eq_true, beq_iff_eq] at h
      obtain ⟨⟨⟨h₁, h₂⟩, h₃⟩, h₄⟩ := h
      rw [h₁, Node.beq_eq cond _ h₂, Node.beq_eq yes _ h₃, Node.beq_eq no _ h₄]
    · cases h
  | .elementAccess _ target index, n', h => by
    unfold Node.beq at h
    split at h
    · simp only [Bool.and_eq_true, beq_iff_eq] at h
      obtain ⟨⟨h₁, h₂⟩, h₃⟩ := h
      rw [h₁, Node.beq_eq target _ h₂, Node.beq_eq index _ h₃]
    · cases h
  | .cast _ _ operand, n', h => by
    unfold Node.beq at h
    split at h
    · simp only [Bool.and_eq_true, beq_iff_eq] at h
      obtain ⟨⟨h₁, h₂⟩, h₃⟩ := h
      rw [h₁, h₂, Node.beq_eq operand _ h₃]
    · cases h
  | .declarator var, n', h => by
    unfold Node.beq at h
    split at h
    · rw [Declarator.beq_eq var _ h]
    · cases h
  | .declaration decl, n', h => by
    unfold Node.beq at h
    split at h
    · rw [Declaration.beq_eq decl _ h]
    · cases h
  | .localDeclaration _ decl, n', h => by
    unfold Node.beq at h
    split at h
    · simp only [Bool.and_eq_true, beq_iff_eq] at h
      obtain ⟨h₁, h₂⟩ := h
      rw [h₁, Declaration.beq_eq decl _ h₂]
    · cases h
  | .expressionStatement _ value, n', h => by
    unfold Node.beq at h
    split at h
    · simp only [Bool.and_eq_true, beq_iff_eq] at h
      obtain ⟨h₁, h₂⟩ := h
      rw [h₁, Node.beq_eq value _ h₂]
    · cases h
  | .returnStatement _ value, n', h => by
    unfold Node.beq at h
    split at h
    · simp only [Bool.and_eq_true, beq_iff_eq] at h
      obtain ⟨h₁, h₂⟩ := h
      rw [h₁, Node.beq_eq value _ h₂]
    · cases h
  | .block _ body, n', h => by
    unfold Node.beq at h
    split at h
    · simp only [Bool.and_eq_true, beq_iff_eq] at h
      obtain ⟨h₁, h₂⟩ := h
      rw [h₁, Node.beqList_eq body _ h₂]
    · cases h
  | .ifStatement _ cond body alt, n', h => by
    unfold Node.beq at h
    split at h
    · simp only [Bool.and_eq_true, beq_iff_eq] at h
      obtain ⟨⟨⟨h₁, h₂⟩, h₃⟩, h₄⟩ := h
      rw [h₁, Node.beq_eq cond _ h₂, Node.beq_eq body _ h₃, Node.beq_eq alt _ h₄]
    · cases h
  | .whileStatement _ cond body, n', h => by
    unfold Node.beq at h
    split at h
    · simp only [Bool.and_eq_true, beq_iff_eq] at h
      obtain ⟨⟨h₁, h₂⟩, h₃⟩ := h
      rw [h₁, Node.beq_eq cond _ h₂, Node.beq_eq body _ h₃]
    · cases h
  | .forStatement _ decl cond incs body, n', h => by
    unfold Node.beq at h
    split at h
    · simp only [Bool.and_eq_true, beq_iff_eq] at h
      obtain ⟨⟨⟨⟨h₁, h₂⟩, h₃⟩, h₄⟩, h₅⟩ := h
      rw [h₁, Declaration.beqOption_eq decl _ h₂, Node.beq_eq cond _ h₃,
        Node.beqList_eq incs _ h₄, Node.beq_eq body _ h₅]
    · cases h
  | .unclassified _ _, n', h => by
    unfold Node.beq at h
    split at h
    · simp only [Bool.and_eq_true, beq_iff_eq] at h
      obtain ⟨h₁, h₂⟩ := h
      rw [h₁, h₂]
    · cases h

theorem Argument.beq_eq : ∀ a a' : Argument, a.beq a' = true → a = a'
  | ⟨_, value⟩, ⟨_, _⟩, h => by
    simp only [Argument.beq, Bool.and_eq_true, beq_iff_eq] at h
    rw [h.1, Node.beq_eq value _ h.2]

theorem Initializer.beq_eq : ∀ i i' : Initializer, i.beq i' = true → i = i'
  | ⟨_, value⟩, ⟨_, _⟩, h => by
    simp only [Initializer.beq, Bool.and_eq_true, beq_iff_eq] at h
    rw [h.1, Node.beq_eq value _ h.2]

theorem Declarator.beq_eq : ∀ v v' : Declarator, v.beq v' = true → v = v'
  | ⟨_, _, init⟩, ⟨_, _, _⟩, h => by
    simp only [Declarator.beq, Bool.and_eq_true, beq_iff_eq] at h
    rw [h.1.1, h.1.2, Initializer.beqOption_eq init _ h.2]

theorem Declaration.beq_eq : ∀ d d' : Declaration, d.beq d' = true → d = d'
  | ⟨_, _, declarators⟩, ⟨_, _, _⟩, h => by
    simp only [Declaration.beq, Bool.and_eq_true, beq_iff_eq] at h
    rw [h.1.1, h.1.2, Declarator.beqList_eq declarators _ h.2]

theorem Node.beqList_eq : ∀ ns ns' : List Node, Node.beqList ns ns' = true → ns = ns'
  | [], [], _ => rfl
  | [], _ :: _, h => by cases h
  | _ :: _, [], h => by cases h
  | n :: ns, _ :: _, h => by
    simp only [Node.beqList, Bool.and_eq_true] at h
    rw [Node.beq_eq n _ h.1, Node.beqList_eq ns _ h.2]

theorem Argument.beqList_eq :
    ∀ as as' : List Argument, Argument.beqList as as' = true → as = as'
  | [], [], _ => rfl
  | [], _ :: _, h => by cases h
  | _ :: _, [], h => by cases h
  | a :: as, _ :: _, h => by
    simp only [Argument.beqList, Bool.and_eq_true] at h
    rw [Argument.beq_eq a _ h.1, Argument.beqList_eq as _ h.2]

theorem Declarator.beqList_eq :
    ∀ vs vs' : List Declarator, Declarator.beqList vs vs' = true → vs = vs'
  | [], [], _ => rfl
  | [], _ :: _, h => by cases h
  | _ :: _, [], h => by cases h
  | v :: vs, _ :: _, h => by
    simp only [Declarator.beqList, Bool.and_eq_true] at h
    rw [Declarator.beq_eq v _ h.1, Declarator.beqList_eq vs _ h.2]

theorem Initializer.beqOption_eq :
    ∀ i i' : Option Initializer, Initializer.beqOption i i' = true → i = i'
  | none, none, _ => rfl
  | none, some _, h => by cases h
  | some _, none, h => by cases h
  | some i, some _, h => congrArg some (Initializer.beq_eq i _ h)

theorem Declaration.beqOption_eq :
    ∀ d d' : Option Declaration, Declaration.beqOption d d' = true → d = d'
  | none, none, _ => rfl
  | none, some _, h => by cases h
  | some _, none, h => by cases h
  | some d, some _, h => congrArg some (Declaration.beq_eq d _ h)

end

instance : DecidableEq Node := fun n n' =>
  decidable_of_iff (n.beq n' = true) ⟨Node.beq_eq n n', fun h => h ▸ n.beq_refl⟩

end Shading
