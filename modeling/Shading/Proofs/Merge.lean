import Mathlib.Data.Finset.Card
import Shading.Table

/-!
# Merging tables

Where several writers give a key a value, the last of them counts. A table that is merged from others
is told from its keys, in their order, and from what is looked up in it; so merging is associative,
and the order of tables that have no key in common does not matter to a look-up.

* `LastSuch`: the last item of a list that has a property.
* `Table.ext_get?`: a table is its keys in order and what is looked up under them.
* `Table.merge_ofList`, `Table.merge_assoc`: **what is merged first is merged once.**
* `Table.size_eq_card`: a table has one row for each of its keys.
-/

namespace Shading

section LastSuch

variable {α β : Type} {p q : α → Prop} {l : List α} {a : α}

/-- `a` is the last item of `l` with the property `p`. -/
def LastSuch (p : α → Prop) (l : List α) (a : α) : Prop :=
  ∃ before after, l = before ++ a :: after ∧ p a ∧ ∀ b ∈ after, ¬ p b

theorem LastSuch.append (h : LastSuch p l a) (l' : List α) : LastSuch p (l' ++ l) a := by
  obtain ⟨before, after, rfl, ha, hafter⟩ := h
  exact ⟨l' ++ before, after, (List.append_assoc _ _ _).symm, ha, hafter⟩

theorem LastSuch.congr (h : LastSuch p l a) (hpq : ∀ b ∈ l, p b ↔ q b) : LastSuch q l a := by
  obtain ⟨before, after, rfl, ha, hafter⟩ := h
  obtain ⟨hself, hlater⟩ := List.forall_mem_cons.1 (List.forall_mem_append.1 hpq).2
  exact ⟨before, after, rfl, hself.1 ha, fun b hb hqb => hafter b hb ((hlater b hb).2 hqb)⟩

/-- If some item has a property, one is the last that has it. -/
theorem exists_lastSuch (h : ∃ b ∈ l, p b) : ∃ a, LastSuch p l a := by
  induction l with
  | nil => simp at h
  | cons c l ih =>
    by_cases hl : ∃ b ∈ l, p b
    · obtain ⟨a, ha⟩ := ih hl
      exact ⟨a, ha.append [c]⟩
    · obtain ⟨b, hb, hpb⟩ := h
      rcases List.mem_cons.1 hb with rfl | hb
      · exact ⟨b, [], l, rfl, hpb, fun later hlater hp => hl ⟨later, hlater, hp⟩⟩
      · exact absurd ⟨b, hb, hpb⟩ hl

/-- To search a list from its end is to look for the last item that gives a result. -/
theorem findSome?_reverse_eq_some_iff {f : α → Option β} {b : β} :
    l.reverse.findSome? f = some b ↔
      ∃ a, LastSuch (fun c => (f c).isSome = true) l a ∧ f a = some b := by
  rw [List.findSome?_eq_some_iff]
  constructor
  · rintro ⟨after, a, before, hl, ha, hafter⟩
    have hsplit : l = before.reverse ++ a :: after.reverse := by
      rw [List.reverse_eq_append_iff] at hl
      simpa using hl
    refine ⟨a, ⟨before.reverse, after.reverse, hsplit, Option.isSome_of_eq_some ha, ?_⟩, ha⟩
    intro c hc
    exact Option.not_isSome_iff_eq_none.2 (hafter c (List.mem_reverse.1 hc))
  · rintro ⟨a, ⟨before, after, rfl, -, hafter⟩, ha⟩
    refine ⟨after.reverse, a, before.reverse, by simp, ha, fun c hc => ?_⟩
    exact Option.not_isSome_iff_eq_none.1 (hafter c (List.mem_reverse.1 hc))

end LastSuch

namespace Table

variable {κ α : Type} [DecidableEq κ] {t t' : Table κ α}

/-- The keys after something was put under `k`: a new key comes last. -/
def withKey (ks : List κ) (k : κ) : List κ :=
  if k ∈ ks then ks else ks ++ [k]

theorem mem_foldl_withKey {ks ks' : List κ} {k : κ} :
    k ∈ ks'.foldl withKey ks ↔ k ∈ ks ∨ k ∈ ks' := by
  induction ks' generalizing ks with
  | nil => simp
  | cons k' ks' ih =>
    rw [List.foldl_cons, ih, withKey]
    split <;> grind

/-- Keys that were put together before are added in the order in which they came. -/
theorem foldl_withKey_foldl (ks first later : List κ) :
    (later.foldl withKey first).foldl withKey ks = (first ++ later).foldl withKey ks := by
  induction later using List.reverseRecOn with
  | nil => rw [List.foldl_nil, List.append_nil]
  | append_singleton later k ih =>
    rw [← List.append_assoc, List.foldl_concat, List.foldl_concat, ← ih, withKey]
    split
    · rename_i hk
      -- the key came before, so it is no new one here either
      have hmem : k ∈ (later.foldl withKey first).foldl withKey ks := mem_foldl_withKey.2 (.inr hk)
      rw [withKey, if_pos hmem]
    · rw [List.foldl_concat]

theorem keys_insertAll (t : Table κ α) (entries : List (κ × α)) :
    (t.insertAll entries).keys = (entries.map Prod.fst).foldl withKey t.keys := by
  induction entries generalizing t with
  | nil => rfl
  | cons entry entries ih =>
    rw [insertAll_cons, ih, keys_insert, List.map_cons, List.foldl_cons, withKey]

theorem keys_merge (t t' : Table κ α) : (t.merge t').keys = t'.keys.foldl withKey t.keys :=
  keys_insertAll t t'.rows

/-- The rows of a table can be read off its keys and what is looked up under them. -/
theorem rows_eq (t : Table κ α) : t.rows = t.keys.filterMap fun k => (t.get? k).map (k, ·) := by
  have hrow : ∀ row ∈ t.rows, (t.get? row.1).map (row.1, ·) = some row := fun row hrow => by
    rw [get?_eq_some_iff.2 hrow, Option.map_some]
  calc t.rows = t.rows.filterMap some := List.filterMap_some.symm
    _ = t.rows.filterMap fun row => (t.get? row.1).map (row.1, ·) :=
      (List.filterMap_congr hrow).symm
    _ = t.keys.filterMap fun k => (t.get? k).map (k, ·) := by
      rw [keys, List.filterMap_map]
      rfl

/-- **A table is its keys in order and what is looked up under them.** -/
theorem ext_get? (hkeys : t.keys = t'.keys) (h : ∀ k, t.get? k = t'.get? k) : t = t' := by
  have hrows : t.rows = t'.rows := by
    rw [rows_eq t, rows_eq t', hkeys]
    simp only [h]
  cases t
  cases t'
  cases hrows
  rfl

/-- Tables in which the same is looked up differ at most in the order of their rows. -/
theorem rows_perm (h : ∀ k, t.get? k = t'.get? k) : t.rows.Perm t'.rows := by
  refine (List.perm_ext_iff_of_nodup t.nodup.of_map t'.nodup.of_map).2 fun row => ?_
  rw [← get?_eq_some_iff, ← get?_eq_some_iff, h]

/-- The order of the rows does not matter to a look-up. -/
theorem get?_of_perm (h : t.rows.Perm t'.rows) (k : κ) : t.get? k = t'.get? k := by
  refine Option.ext fun a => ?_
  rw [get?_eq_some_iff, get?_eq_some_iff, h.mem_iff]

theorem size_congr (h : ∀ k, t.get? k = t'.get? k) : t.size = t'.size :=
  (rows_perm h).length_eq

/-- **A table has one row for each of its keys.** -/
theorem size_eq_card {ks : Finset κ} (h : ∀ k, k ∈ t.keys ↔ k ∈ ks) : t.size = ks.card := by
  have hkeys : t.keys.toFinset = ks := by
    ext k
    rw [List.mem_toFinset, h]
  have hnodup : t.keys.Nodup := t.nodup
  rw [← hkeys, List.toFinset_card_of_nodup hnodup, length_keys]

/-- **To merge a table that was made from entries is to put these entries.** -/
theorem merge_ofList (t : Table κ α) (entries : List (κ × α)) :
    t.merge (ofList entries) = t.insertAll entries := by
  refine ext_get? ?_ fun k => ?_
  · have hkeys : (ofList entries).keys = (entries.map Prod.fst).foldl withKey [] :=
      keys_insertAll empty entries
    rw [keys_merge, keys_insertAll, hkeys, foldl_withKey_foldl, List.nil_append]
  · rw [get?_merge, get?_ofList, get?_insertAll]

/-- A table in which nothing is looked up adds nothing. -/
theorem merge_of_get?_eq_none (t : Table κ α) (h : ∀ k, t'.get? k = none) : t.merge t' = t := by
  have hkeys : t'.keys = [] :=
    List.eq_nil_iff_forall_not_mem.2 fun k => get?_eq_none.1 (h k)
  refine ext_get? ?_ fun k => ?_
  · rw [keys_merge, hkeys, List.foldl_nil]
  · rw [get?_merge, h, Option.none_or]

/-- **Merging is associative.** -/
theorem merge_assoc (t t' t'' : Table κ α) : (t.merge t').merge t'' = t.merge (t'.merge t'') := by
  refine ext_get? ?_ fun k => ?_
  · rw [keys_merge, keys_merge, keys_merge, keys_merge, foldl_withKey_foldl, List.foldl_append]
  · rw [get?_merge, get?_merge, get?_merge, get?_merge, Option.or_assoc]

section Missing

/-! Tables that may be missing. -/

variable {o : Option (Table κ α)} {k : κ}

theorem mem_elim_keys : k ∈ o.elim [] keys ↔ (o.bind (·.get? k)).isSome = true := by
  cases o with
  | none => simp
  | some t => exact isSome_get?.symm

theorem merge_getD_merge (t : Table κ α) (o o' : Option (Table κ α)) :
    (t.merge (o.getD .empty)).merge (o'.getD .empty) = t.merge ((o.merge merge o').getD .empty) := by
  cases o with
  | none => cases o' <;> rfl
  | some t' =>
    cases o' with
    | none => rfl
    | some t'' => exact merge_assoc t t' t''

theorem merge_getD_of_bind_eq_none (t : Table κ α) (h : ∀ k, o.bind (·.get? k) = none) :
    t.merge (o.getD .empty) = t := by
  cases o with
  | none => rfl
  | some t' => exact merge_of_get?_eq_none t h

end Missing

end Table

end Shading
