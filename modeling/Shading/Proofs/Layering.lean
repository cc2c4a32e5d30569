import Shading.Proofs.Merge
import Shading.Query

/-!
# Chains of extensions

A dialect to which extensions are added in turn is a pile of tables: a word is taken from the topmost
of them that has it, and a question that none of them answers is left to the dialect underneath. The
pile can be merged from either end, so a chain of extensions is a single one.

* `Extension.merge`: two extensions as one, the second over the first.
* `Dialect.extend_merge`, `Dialect.extendAll_eq_extend`: **a chain of extensions is one extension.**
* `Dialect.extendAll_layers`: what a chain has words for, how many, and when its order matters.
-/

namespace Shading

namespace Extension

/-- The extension that adds nothing. -/
def nothing : Extension :=
  ⟨none, none⟩

/-- Both extensions in one; where both have a key, the word is that of the second. -/
def merge (e e' : Extension) : Extension :=
  ⟨e.types.merge Table.merge e'.types, e.methods.merge Table.merge e'.methods⟩

/-- The names of the types that are added. -/
def typeNames (e : Extension) : List String :=
  e.types.elim [] Table.keys

/-- The keys of the methods that are added. -/
def methodKeys (e : Extension) : List MethodKey :=
  e.methods.elim [] Table.keys

/-- The extension has a word for the type or method. -/
def Has (l : Lookup) (e : Extension) : Prop :=
  (e.find? l).isSome = true

instance (l : Lookup) : DecidablePred (Has l) :=
  fun e => inferInstanceAs (Decidable ((e.find? l).isSome = true))

/-- No type or method has a word in both extensions. -/
def Disjoint (e e' : Extension) : Prop :=
  ∀ l, e.find? l = none ∨ e'.find? l = none

variable {e : Extension}

theorem mem_typeNames {name : String} : name ∈ e.typeNames ↔ e.Has (.type name) :=
  Table.mem_elim_keys

theorem mem_methodKeys {key : MethodKey} : key ∈ e.methodKeys ↔ e.Has (.method key) :=
  Table.mem_elim_keys

end Extension

namespace Dialect

variable {d d' : Dialect} {e e' : Extension} {es : List Extension} {l : Lookup}

theorem isSome_find?_type {name : String} :
    (d.find? (.type name)).isSome = true ↔ name ∈ d.types.keys :=
  Table.isSome_get?

theorem isSome_find?_method {key : MethodKey} :
    (d.find? (.method key)).isSome = true ↔ key ∈ d.methods.keys :=
  Table.isSome_get?

/-- A chain has the word of its last extension that has one. -/
theorem find?_extendAll_of_last {word : String} (h : LastSuch (Extension.Has l) es e)
    (hword : e.find? l = some word) : (d.extendAll es).find? l = some word := by
  have hlast : es.reverse.findSome? (·.find? l) = some word :=
    findSome?_reverse_eq_some_iff.2 ⟨e, h, hword⟩
  rw [find?_extendAll, hlast, Option.some_or]

/-- What no extension has is left to the dialect. -/
theorem find?_extendAll_of_none (h : ∀ e ∈ es, ¬ e.Has l) :
    (d.extendAll es).find? l = d.find? l := by
  have hnone : es.reverse.findSome? (·.find? l) = none := by
    refine List.findSome?_eq_none_iff.2 fun e he => ?_
    exact Option.not_isSome_iff_eq_none.1 (h e (List.mem_reverse.1 he))
  rw [find?_extendAll, hnone, Option.none_or]

/-- A chain has words for what the dialect has and for what some extension has. -/
theorem isSome_find?_extendAll :
    ((d.extendAll es).find? l).isSome = true ↔
      (d.find? l).isSome = true ∨ ∃ e ∈ es, e.Has l := by
  rw [find?_extendAll, Option.isSome_or, Bool.or_eq_true, List.findSome?_isSome_iff, or_comm]
  simp only [List.mem_reverse, Extension.Has]

theorem mem_keys_types_extendAll {name : String} :
    name ∈ (d.extendAll es).types.keys ↔ name ∈ d.types.keys ++ es.flatMap (·.typeNames) := by
  rw [← isSome_find?_type, isSome_find?_extendAll, isSome_find?_type, List.mem_append,
    List.mem_flatMap]
  simp only [Extension.mem_typeNames]

theorem mem_keys_methods_extendAll {key : MethodKey} :
    key ∈ (d.extendAll es).methods.keys ↔
      key ∈ d.methods.keys ++ es.flatMap (·.methodKeys) := by
  rw [← isSome_find?_method, isSome_find?_extendAll, isSome_find?_method, List.mem_append,
    List.mem_flatMap]
  simp only [Extension.mem_methodKeys]

theorem size_types_extendAll (d : Dialect) (es : List Extension) :
    (d.extendAll es).types.size =
      (d.types.keys ++ es.flatMap (·.typeNames)).toFinset.card :=
  Table.size_eq_card fun _ => mem_keys_types_extendAll.trans List.mem_toFinset.symm

theorem size_methods_extendAll (d : Dialect) (es : List Extension) :
    (d.extendAll es).methods.size =
      (d.methods.keys ++ es.flatMap (·.methodKeys)).toFinset.card :=
  Table.size_eq_card fun _ => mem_keys_methods_extendAll.trans List.mem_toFinset.symm

/-- **Two extensions in turn are one merged extension.** -/
theorem extend_merge (d : Dialect) (e e' : Extension) :
    (d.extend e).extend e' = d.extend (e.merge e') := by
  simp only [extend, Extension.merge, Table.merge_getD_merge]

theorem extend_nothing (d : Dialect) : d.extend .nothing = d := rfl

theorem extendAll_extend (d : Dialect) (e : Extension) (es : List Extension) :
    (d.extend e).extendAll es = d.extend (es.foldl Extension.merge e) := by
  induction es generalizing e with
  | nil => rfl
  | cons e' es ih =>
    have hfirst : (d.extend e).extendAll (e' :: es) = ((d.extend e).extend e').extendAll es := rfl
    rw [hfirst, extend_merge, ih, List.foldl_cons]

/-- **A chain of extensions is one extension**, merged from all of them. -/
theorem extendAll_eq_extend (d : Dialect) (es : List Extension) :
    d.extendAll es = d.extend (es.foldl Extension.merge .nothing) := by
  rw [← extendAll_extend, extend_nothing]

/-- An extension without words leaves the dialect as it is. -/
theorem extend_of_find?_eq_none (h : ∀ l, e.find? l = none) : d.extend e = d := by
  have htypes : d.types.merge (e.types.getD .empty) = d.types :=
    Table.merge_getD_of_bind_eq_none _ fun name => h (.type name)
  have hmethods : d.methods.merge (e.methods.getD .empty) = d.methods :=
    Table.merge_getD_of_bind_eq_none _ fun key => h (.method key)
  rw [extend, htypes, hmethods]

theorem find?_extend_comm (h : e.Disjoint e') (l : Lookup) :
    ((d.extend e).extend e').find? l = ((d.extend e').extend e).find? l := by
  simp only [find?_extend]
  rcases h l with he | he'
  · rw [he, Option.none_or, Option.none_or]
  · rw [he', Option.none_or, Option.none_or]

theorem summary_congr (hname : d.name = d'.name) (h : ∀ l, d.find? l = d'.find? l) :
    d.summary = d'.summary := by
  have htypes : d.types.size = d'.types.size := by
    refine Table.size_congr fun name => ?_
    exact h (.type name)
  have hmethods : d.methods.size = d'.methods.size := by
    refine Table.size_congr fun key => ?_
    exact h (.method key)
  unfold summary
  rw [hname, htypes, hmethods]

/-- **A chain of extensions lays tables over one another.** It keeps the name of the dialect. For a
type or method it gives the word of the last extension that has one, and where none has, it answers
or fails as the dialect does. Its summary counts every key once, whichever tables have it. So the
chain is a single merged extension, an extension without words changes nothing, and two extensions
without a common key can be swapped. -/
theorem extendAll_layers (d : Dialect) (es : List Extension) :
    (d.extendAll es).name = d.name ∧
    (∀ l file symbols,
      (∀ e word, LastSuch (Extension.Has l) es e → e.find? l = some word →
        (Query.word l).answer file (d.extendAll es) symbols = pure (.text word)) ∧
      ((∀ e ∈ es, ¬ e.Has l) →
        (Query.word l).answer file (d.extendAll es) symbols =
          (Query.word l).answer file d symbols)) ∧
    (d.extendAll es).summary =
      "Backend(name=" ++ Text.quote d.name ++ ", types=" ++
        toString (d.types.keys ++ es.flatMap (·.typeNames)).toFinset.card ++ ", functions=" ++
        toString (d.methods.keys ++ es.flatMap (·.methodKeys)).toFinset.card ++ ")" ∧
    d.extendAll es = d.extend (es.foldl Extension.merge .nothing) ∧
    (∀ e e', (d.extend e).extend e' = d.extend (e.merge e')) ∧
    (∀ e, (∀ l, ¬ e.Has l) → d.extend e = d) ∧
    ∀ e e', e.Disjoint e' →
      (∀ l file symbols, (Query.word l).answer file ((d.extend e).extend e') symbols =
        (Query.word l).answer file ((d.extend e').extend e) symbols) ∧
      ((d.extend e).extend e').summary = ((d.extend e').extend e).summary := by
  refine ⟨name_extendAll d es, fun l file symbols => ⟨?_, ?_⟩, ?_, extendAll_eq_extend d es,
    extend_merge d, ?_, ?_⟩
  · intro e word hlast hword
    rw [Query.answer_word, find?_extendAll_of_last hlast hword]
  · intro hnone
    rw [Query.answer_word, Query.answer_word, find?_extendAll_of_none hnone, name_extendAll]
  · unfold summary
    rw [size_types_extendAll, size_methods_extendAll, name_extendAll]
  · intro e hnone
    exact extend_of_find?_eq_none fun l => Option.not_isSome_iff_eq_none.1 (hnone l)
  · intro e e' hdisjoint
    have hsame : ∀ l, ((d.extend e).extend e').find? l = ((d.extend e').extend e).find? l :=
      find?_extend_comm hdisjoint
    refine ⟨fun l file symbols => ?_, summary_congr rfl hsame⟩
    rw [Query.answer_word, Query.answer_word, hsame]
    rfl

/-- A word that two extensions give is that of the later one, one that none gives is that of the
dialect, and the keys are counted once. -/
theorem late_word_replaces_early_one :
    let toy : Dialect := ⟨"Toy", .ofList [("float", "float"), ("int", "int")], .empty⟩
    let half : Extension := ⟨some (.ofList [("float", "half"), ("Light", "Light")]), none⟩
    let shade : Extension := ⟨none, some (.ofList [(⟨"Lighting", "Shade"⟩, "shade")])⟩
    let real : Extension := ⟨some (.ofList [("float", "real")]), none⟩
    let es := [half, shade, real]
    LastSuch (Extension.Has (.type "float")) es real ∧ half.Disjoint shade ∧
      (Query.word (.type "float")).answer none (toy.extendAll es) .empty = pure (.text "real") ∧
      (Query.word (.type "int")).answer none (toy.extendAll es) .empty = pure (.text "int") ∧
      ((Query.word (.type "bool")).answer none (toy.extendAll es) .empty).log =
        [.lookupFailed ⟨"Toy", .type "bool"⟩] ∧
      (toy.extendAll es).summary = "Backend(name='Toy', types=3, functions=1)" ∧
      ((toy.extend half).extend shade).summary = ((toy.extend shade).extend half).summary := by
  intro toy half shade real es
  obtain ⟨-, hanswers, hsummary, -, -, -, hswap⟩ := extendAll_layers toy es
  have hlast : LastSuch (Extension.Has (.type "float")) es real :=
    ⟨[half, shade], [], rfl, rfl, nofun⟩
  have hdisjoint : half.Disjoint shade := by
    rintro (name | key)
    · exact .inr rfl
    · exact .inl rfl
  refine ⟨hlast, hdisjoint, (hanswers _ none .empty).1 real "real" hlast rfl, ?_, ?_, ?_,
    (hswap half shade hdisjoint).2⟩
  · rw [(hanswers (.type "int") none .empty).2 (by decide)]
    rfl
  · rw [(hanswers (.type "bool") none .empty).2 (by decide)]
    rfl
  · rw [hsummary]
    decide +kernel

end Dialect

end Shading
