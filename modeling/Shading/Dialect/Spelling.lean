import Shading.Dialect.Basic

/-!
# Spellings

A source type has several spellings, and a dialect is asked for it by any of them. A scalar has
its keyword and, where it is one of the known keywords, the name of its runtime type; an
aggregate has its simple name and the name qualified by its scope. A method can belong to several
types under one name.

* `get?_typeTable`: of the entries that have a spelling in common, the last one gives its token,
  where all scalars come before all aggregates.
* `get?_methodTable`: an expanded method has the same function in every type it belongs to.
-/

namespace Shading

/-- The keywords of the scalar types and the names of their runtime types. -/
def scalarKeywords : List (String × String) :=
  [("float", "System.Single"), ("double", "System.Double"), ("int", "System.Int32"),
    ("uint", "System.UInt32"), ("bool", "System.Boolean"), ("void", "System.Void")]

/-- Every spelling of the scalar written `word`. -/
def scalarSpellings (word : String) : List String :=
  word :: (scalarKeywords.lookup word).toList

/-- Both spellings of the aggregate `name` declared in `scope`. -/
def aggregateSpellings (scope name : String) : List String :=
  [name, scope ++ "." ++ name]

/-- The token of a type under each of its spellings. -/
def spell (spellings : String → List String) (entry : String × String) :
    List (String × String) :=
  (spellings entry.1).map (·, entry.2)

/-- The entries for all spellings of the given types, scalars first. -/
def typeEntries (scalars aggregates : TypeTable) (scope : String) : List (String × String) :=
  scalars.rows.flatMap (spell scalarSpellings) ++
    aggregates.rows.flatMap (spell (aggregateSpellings scope))

/-- The table of the given types under all their spellings. -/
def typeTable (scalars aggregates : TypeTable) (scope : String) : TypeTable :=
  .ofList (typeEntries scalars aggregates scope)

/-- The entries for methods that each of the types `containers` has. -/
def methodEntries (containers : List String) (methods : Table String String) :
    List (MethodKey × String) :=
  containers.flatMap fun container =>
    methods.rows.map fun row => (⟨container, row.1⟩, row.2)

/-- The table of methods that each of the types `containers` has. -/
def methodTable (containers : List String) (methods : Table String String) : MethodTable :=
  .ofList (methodEntries containers methods)

/-- Of the entries with a spelling in common the last one counts. -/
theorem get?_typeTable (scalars aggregates : TypeTable) (scope key : String) :
    (typeTable scalars aggregates scope).get? key =
      (typeEntries scalars aggregates scope).reverse.lookup key :=
  Table.get?_ofList _ _

theorem mem_methodEntries {containers : List String} {methods : Table String String}
    {key : MethodKey} {word : String} :
    (key, word) ∈ methodEntries containers methods ↔
      key.container ∈ containers ∧ methods.get? key.name = some word := by
  simp only [methodEntries, List.mem_flatMap, List.mem_map, Table.get?_eq_some_iff, Prod.exists,
    Prod.mk.injEq]
  constructor
  · rintro ⟨container, hc, name, word', hm, rfl, rfl⟩
    exact ⟨hc, hm⟩
  · rintro ⟨hc, hm⟩
    exact ⟨key.container, hc, key.name, word, hm, rfl, rfl⟩

/-- An expanded method has its function in every one of the types and in no other. -/
theorem get?_methodTable (containers : List String) (methods : Table String String)
    (key : MethodKey) :
    (methodTable containers methods).get? key =
      if key.container ∈ containers then methods.get? key.name else none := by
  cases h : (methodTable containers methods).get? key with
  | some word =>
    obtain ⟨hc, hm⟩ := mem_methodEntries.1 (Table.mem_of_get?_ofList h)
    rw [if_pos hc, hm]
  | none =>
    have hn := Table.get?_ofList_eq_none.1 h
    split
    · rename_i hc
      cases hm : methods.get? key.name with
      | none => rfl
      | some word => exact absurd (mem_methodEntries.2 ⟨hc, hm⟩) (hn word)
    · rfl

end Shading
