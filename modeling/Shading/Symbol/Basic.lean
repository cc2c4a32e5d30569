import Shading.Source.TypeRef

/-!
# Symbols

What an identifier denotes: a method of some type, or a type of some scope. Either gives the key
under which a dialect is asked for it.

* `methodKey?_eq_some`: a symbol gives a method key exactly when it is a method whose declaring
  type has a name.
* `fullName_eq_qualifiedName`: a symbol and a reference with one name and one scope are known under
  one text.
* `typeName?_eq_some`: a symbol gives a type name exactly when it is a type.
-/

namespace Shading

/-- A method of a library type. -/
structure MethodKey where
  container : String
  name : String
deriving DecidableEq, Inhabited, Repr

namespace MethodKey

/-- The method as messages show it. -/
def path (k : MethodKey) : String :=
  k.container ++ "." ++ k.name

/-- Orders methods by their declaring types, and those of one type by their names. -/
def le (k k' : MethodKey) : Bool :=
  k.container < k'.container || k.container = k'.container && k.name ≤ k'.name

end MethodKey

/-- The two sorts of symbols. -/
inductive SymbolKind where
  | method
  | type
deriving DecidableEq, Inhabited, Repr

/-- A resolved symbol. Methods have a declaring type, types a declaring scope. -/
structure Symbol where
  name : String
  kind : SymbolKind
  containingType : Option String
  scope : Option String
deriving DecidableEq, Inhabited, Repr

namespace Symbol

/-- A method of the type `container`. -/
def method (container name : String) : Symbol :=
  ⟨name, .method, some container, none⟩

/-- A type declared in `scope`. -/
def type (name : String) (scope : Option String) : Symbol :=
  ⟨name, .type, none, scope⟩

/-- The library method that the symbol is, if its declaring type has a name. -/
def methodKey? (s : Symbol) : Option MethodKey :=
  match s.kind, s.containingType with
  | .method, some container => if container = "" then none else some ⟨container, s.name⟩
  | _, _ => none

/-- The name of the symbol, behind the scope that declares it if one is known. -/
def fullName (s : Symbol) : String :=
  match s.scope with
  | none | some "" => s.name
  | some scope => scope ++ "." ++ s.name

/-- The name under which a dialect knows the type that the symbol is. -/
def typeName? (s : Symbol) : Option String :=
  match s.kind with
  | .type => some s.fullName
  | .method => none

/-- Symbols are known under the names under which references of the same name and scope are. -/
theorem fullName_eq_qualifiedName (s : Symbol) : s.fullName = qualifiedName s.scope s.name := by
  unfold fullName
  split
  · rename_i hscope
    rw [hscope, qualifiedName_of_unscoped rfl]
  · rename_i hscope
    rw [hscope, qualifiedName_of_unscoped rfl]
  · rename_i scope hne hscope
    rw [hscope, qualifiedName_of_scoped hne]

theorem methodKey?_eq_some {s : Symbol} {k : MethodKey} :
    s.methodKey? = some k ↔
      s.kind = .method ∧ s.containingType = some k.container ∧ k.container ≠ "" ∧
        s.name = k.name := by
  obtain ⟨name, kind, container, scope⟩ := s
  obtain ⟨container', name'⟩ := k
  cases kind
  · cases container with
    | none => simp [methodKey?]
    | some container =>
      simp only [methodKey?]
      split <;> simp_all
      rintro rfl rfl
      assumption
  · simp [methodKey?]

theorem typeName?_eq_some {s : Symbol} {name : String} :
    s.typeName? = some name ↔ s.kind = .type ∧ qualifiedName s.scope s.name = name := by
  rw [typeName?, ← fullName_eq_qualifiedName]
  cases s.kind <;> simp

end Symbol

end Shading
