import Shading.Dialect.Builtin

/-!
# What the built-in dialects have words for

Which names an expanded table has depends on the names that go into it and not on the words. So the
reach of a built-in dialect can be told from the names of its five lists, and two dialects are
compared by comparing these.

* `isSome_get?_typeTable`: a table of types has exactly the spellings of its entries.
* `Vocabulary.isSome_get?_types`, `Vocabulary.isSome_get?_methods`: the names of a vocabulary.
* `Dialect.isSome_find?_glsl_type`, `Dialect.isSome_find?_hlsl_method`: **GLSL and HLSL have words
  for the same types and methods, two intrinsics of HLSL apart.**
-/

namespace Shading

namespace Table

variable {κ α : Type} [DecidableEq κ]

/-- A table built from a list has exactly the keys of the list. -/
theorem isSome_get?_ofList {entries : List (κ × α)} {k : κ} :
    ((ofList entries).get? k).isSome = true ↔ ∃ a, (k, a) ∈ entries := by
  rw [← Option.ne_none_iff_isSome, ne_eq, get?_ofList_eq_none, Classical.not_forall_not]

/-- A merged table has the keys of both. -/
theorem isSome_get?_merge {t t' : Table κ α} {k : κ} :
    ((t.merge t').get? k).isSome = true ↔
      (t.get? k).isSome = true ∨ (t'.get? k).isSome = true := by
  rw [get?_merge, Option.isSome_or, Bool.or_eq_true, or_comm]

end Table

/-- An entry has a word under exactly its spellings. -/
theorem exists_mem_flatMap_spell {spellings : String → List String} {t : TypeTable}
    {key : String} :
    (∃ word, (key, word) ∈ t.rows.flatMap (spell spellings)) ↔
      ∃ name ∈ t.keys, key ∈ spellings name := by
  simp only [List.mem_flatMap, spell, List.mem_map, Prod.mk.injEq, Table.keys, Prod.exists]
  constructor
  · rintro ⟨word, name, _, hrow, _, hkey, rfl, rfl⟩
    exact ⟨name, ⟨name, _, hrow, rfl⟩, hkey⟩
  · rintro ⟨name, ⟨_, word, hrow, rfl⟩, hkey⟩
    exact ⟨word, _, word, hrow, key, hkey, rfl, rfl⟩

/-- **A table of types has exactly the spellings of its entries.** -/
theorem isSome_get?_typeTable {scalars aggregates : TypeTable} {scope key : String} :
    ((typeTable scalars aggregates scope).get? key).isSome = true ↔
      (∃ name ∈ scalars.keys, key ∈ scalarSpellings name) ∨
        ∃ name ∈ aggregates.keys, key ∈ aggregateSpellings scope name := by
  rw [typeTable, Table.isSome_get?_ofList, ← exists_mem_flatMap_spell, ← exists_mem_flatMap_spell,
    ← exists_or]
  simp only [typeEntries, List.mem_append]

/-- An expanded method has a word in every one of the types that it belongs to. -/
theorem isSome_get?_methodTable {containers : List String} {methods : Table String String}
    {key : MethodKey} :
    ((methodTable containers methods).get? key).isSome = true ↔
      key.container ∈ containers ∧ key.name ∈ methods.keys := by
  rw [get?_methodTable, ← Table.isSome_get?]
  by_cases h : key.container ∈ containers
  · simp [h]
  · simp [h]

namespace Vocabulary

variable {v : Vocabulary}

theorem isSome_get?_types {name : String} :
    (v.types.get? name).isSome = true ↔
      (∃ word ∈ v.scalars.keys, name ∈ scalarSpellings word) ∨
        ∃ word ∈ v.aggregates.keys, name ∈ aggregateSpellings numericsScope word :=
  isSome_get?_typeTable

theorem isSome_get?_methods {key : MethodKey} :
    (v.methods.get? key).isSome = true ↔
      key.container ∈ mathClasses ∧ key.name ∈ v.math.keys ∨
        key.container ∈ vectorClasses ∧ key.name ∈ v.geometry.keys ∨
          key.container = intrinsicsClass ∧ key.name ∈ v.intrinsics.keys := by
  rw [methods, Table.isSome_get?_merge, Table.isSome_get?_merge, isSome_get?_methodTable,
    isSome_get?_methodTable, isSome_get?_methodTable, List.mem_singleton, or_assoc]

end Vocabulary

namespace MethodKey

/-- The intrinsic `Saturate`. -/
def saturate : MethodKey :=
  ⟨intrinsicsClass, "Saturate"⟩

/-- The intrinsic `Mul`. -/
def mul : MethodKey :=
  ⟨intrinsicsClass, "Mul"⟩

end MethodKey

namespace Dialect

/-- Both built-in dialects know the same types. -/
theorem isSome_find?_glsl_type (name : String) :
    (glsl.find? (.type name)).isSome = (hlsl.find? (.type name)).isSome := by
  have hscalars : glslVocabulary.scalars.keys = hlslVocabulary.scalars.keys := by decide +kernel
  have haggregates : glslVocabulary.aggregates.keys = hlslVocabulary.aggregates.keys := by
    decide +kernel
  have hsame : (glslVocabulary.types.get? name).isSome = true ↔
      (hlslVocabulary.types.get? name).isSome = true := by
    rw [Vocabulary.isSome_get?_types, Vocabulary.isSome_get?_types, hscalars, haggregates]
  exact Bool.eq_iff_iff.2 hsame

/-- The intrinsics of HLSL are those of GLSL and two more. -/
theorem mem_keys_hlsl_intrinsics {name : String} :
    name ∈ hlslVocabulary.intrinsics.keys ↔
      name = "Saturate" ∨ name = "Mul" ∨ name ∈ glslVocabulary.intrinsics.keys := by
  have hkeys : hlslVocabulary.intrinsics.keys =
      "Saturate" :: "Mul" :: glslVocabulary.intrinsics.keys := by
    decide +kernel
  rw [hkeys, List.mem_cons, List.mem_cons]

/-- HLSL has a word for a method exactly if GLSL has one or it is one of the two intrinsics. -/
theorem isSome_find?_hlsl_method {key : MethodKey} :
    (hlsl.find? (.method key)).isSome = true ↔
      (glsl.find? (.method key)).isSome = true ∨ key = .saturate ∨ key = .mul := by
  have hmath : hlslVocabulary.math.keys = glslVocabulary.math.keys := by decide +kernel
  have hgeometry : hlslVocabulary.geometry.keys = glslVocabulary.geometry.keys := by
    decide +kernel
  have hhlsl : (hlsl.find? (.method key)).isSome = true ↔
      (hlslVocabulary.methods.get? key).isSome = true := Iff.rfl
  have hglsl : (glsl.find? (.method key)).isSome = true ↔
      (glslVocabulary.methods.get? key).isSome = true := Iff.rfl
  obtain ⟨container, name⟩ := key
  rw [hhlsl, hglsl, Vocabulary.isSome_get?_methods, Vocabulary.isSome_get?_methods, hmath,
    hgeometry, mem_keys_hlsl_intrinsics, MethodKey.saturate, MethodKey.mul, MethodKey.mk.injEq,
    MethodKey.mk.injEq]
  grind

end Dialect

end Shading
