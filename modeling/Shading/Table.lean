/-!
# Tables

Finite maps that remember the order of their keys. A key stands where it was first put and has
the value that was put last. Where two entries of a list have the same key, the later one
therefore wins, and the order of a table built from another one is the order of that one.

* `get?_insert`: what a key holds after something was put.
* `get?_insertAll`: of the entries put in turn, the last one of a key counts.
* `get?_merge`: the second table has precedence in a merge.
* `keys_insert`: putting adds a new key at the end and leaves the order of the old ones.
-/

namespace Shading

variable {κ α β : Type}

/-- A finite map from `κ` to `α`, as the list of its rows in order. -/
structure Table (κ α : Type) where
  rows : List (κ × α)
  /-- Each key has one row. -/
  nodup : (rows.map Prod.fst).Nodup

namespace Table

/-- The table without rows. -/
def empty : Table κ α :=
  ⟨[], List.nodup_nil⟩

instance : Inhabited (Table κ α) := ⟨empty⟩

/-- The keys in order. -/
def keys (t : Table κ α) : List κ :=
  t.rows.map Prod.fst

/-- The number of keys. -/
def size (t : Table κ α) : Nat :=
  t.rows.length

/-- The rows in the order of their keys under `le`. -/
def sortedRows (le : κ → κ → Bool) (t : Table κ α) : List (κ × α) :=
  t.rows.mergeSort fun a b => le a.1 b.1

/-- The table with `f` applied to each of its values. -/
def mapValues (f : α → β) (t : Table κ α) : Table κ β :=
  ⟨t.rows.map fun row => (row.1, f row.2), by
    simpa [List.map_map, Function.comp_def] using t.nodup⟩

@[simp] theorem keys_empty : (empty : Table κ α).keys = [] := rfl

@[simp] theorem length_keys (t : Table κ α) : t.keys.length = t.size :=
  List.length_map _

@[simp] theorem keys_mapValues (f : α → β) (t : Table κ α) : (t.mapValues f).keys = t.keys := by
  simp [keys, mapValues, List.map_map, Function.comp_def]

/-- Sorting moves rows and keeps all of them. -/
theorem sortedRows_perm (le : κ → κ → Bool) (t : Table κ α) :
    (t.sortedRows le).Perm t.rows :=
  List.mergeSort_perm _ _

variable [DecidableEq κ]

/-- The value that a key has. -/
def get? (t : Table κ α) (k : κ) : Option α :=
  t.rows.lookup k

/-- The rows after `a` was put under `k`. -/
def putRow (k : κ) (a : α) : List (κ × α) → List (κ × α)
  | [] => [(k, a)]
  | row :: rows => if row.1 = k then (k, a) :: rows else row :: putRow k a rows

theorem map_fst_putRow (k : κ) (a : α) (rows : List (κ × α)) :
    (putRow k a rows).map Prod.fst =
      if k ∈ rows.map Prod.fst then rows.map Prod.fst else rows.map Prod.fst ++ [k] := by
  induction rows with
  | nil => rfl
  | cons row rows ih => grind [putRow]

theorem nodup_putRow (k : κ) (a : α) {rows : List (κ × α)}
    (h : (rows.map Prod.fst).Nodup) : ((putRow k a rows).map Prod.fst).Nodup := by
  rw [map_fst_putRow]
  split
  · exact h
  · rename_i hk
    refine List.nodup_append.2 ⟨h, List.pairwise_singleton _ _, fun k' hk' _ he => ?_⟩
    rw [List.mem_singleton] at he
    exact fun e => hk (he ▸ e ▸ hk')

theorem lookup_cons (k : κ) (row : κ × α) (rows : List (κ × α)) :
    (row :: rows).lookup k = if k = row.1 then some row.2 else rows.lookup k := by
  obtain ⟨k', a⟩ := row
  rw [List.lookup_cons]
  by_cases h : k = k'
  · rw [if_pos h, h, beq_self_eq_true]
  · rw [if_neg h, beq_false_of_ne h]

theorem lookup_putRow (k k' : κ) (a : α) (rows : List (κ × α)) :
    (putRow k a rows).lookup k' = if k' = k then some a else rows.lookup k' := by
  induction rows with
  | nil => exact lookup_cons k' (k, a) []
  | cons row rows ih => grind [putRow, lookup_cons]

/-- Puts `a` under `k`: a new key comes last, an old one keeps its place. -/
def insert (t : Table κ α) (k : κ) (a : α) : Table κ α :=
  ⟨putRow k a t.rows, nodup_putRow k a t.nodup⟩

/-- Puts each of the entries in turn. -/
def insertAll (t : Table κ α) (entries : List (κ × α)) : Table κ α :=
  entries.foldl (fun t entry => t.insert entry.1 entry.2) t

/-- The table of a list of entries. -/
def ofList (entries : List (κ × α)) : Table κ α :=
  empty.insertAll entries

/-- Both tables in one; where both have a key, the value is that of the second. -/
def merge (t t' : Table κ α) : Table κ α :=
  t.insertAll t'.rows

@[simp] theorem get?_empty (k : κ) : (empty : Table κ α).get? k = none := rfl

theorem get?_insert (t : Table κ α) (k k' : κ) (a : α) :
    (t.insert k a).get? k' = if k' = k then some a else t.get? k' :=
  lookup_putRow k k' a t.rows

@[simp] theorem get?_insert_self (t : Table κ α) (k : κ) (a : α) :
    (t.insert k a).get? k = some a := by
  simp [get?_insert]

theorem get?_insert_of_ne (t : Table κ α) {k k' : κ} (h : k' ≠ k) (a : α) :
    (t.insert k a).get? k' = t.get? k' := by
  simp [get?_insert, h]

theorem keys_insert (t : Table κ α) (k : κ) (a : α) :
    (t.insert k a).keys = if k ∈ t.keys then t.keys else t.keys ++ [k] :=
  map_fst_putRow k a t.rows

@[simp] theorem insertAll_nil (t : Table κ α) : t.insertAll [] = t := rfl

@[simp] theorem insertAll_cons (t : Table κ α) (entry : κ × α) (entries : List (κ × α)) :
    t.insertAll (entry :: entries) = (t.insert entry.1 entry.2).insertAll entries := rfl

theorem insertAll_append (t : Table κ α) (entries entries' : List (κ × α)) :
    t.insertAll (entries ++ entries') = (t.insertAll entries).insertAll entries' :=
  List.foldl_append

/-- Of the entries put in turn, the last one of a key counts. -/
theorem get?_insertAll (t : Table κ α) (entries : List (κ × α)) (k : κ) :
    (t.insertAll entries).get? k = (entries.reverse.lookup k).or (t.get? k) := by
  induction entries generalizing t with
  | nil => rfl
  | cons entry entries ih =>
    rw [insertAll_cons, ih, get?_insert, List.reverse_cons, List.lookup_append]
    by_cases h : k = entry.1 <;> simp [lookup_cons, h]

theorem get?_ofList (entries : List (κ × α)) (k : κ) :
    (ofList entries).get? k = entries.reverse.lookup k := by
  rw [ofList, get?_insertAll, get?_empty, Option.or_none]

theorem mem_of_lookup {rows : List (κ × α)} {k : κ} {a : α} (h : rows.lookup k = some a) :
    (k, a) ∈ rows := by
  induction rows with
  | nil => cases h
  | cons row rows ih =>
    rw [lookup_cons] at h
    split at h
    · obtain rfl := Option.some.inj h
      subst k
      exact List.mem_cons_self
    · exact List.mem_cons_of_mem _ (ih h)

theorem lookup_eq_none_iff {rows : List (κ × α)} {k : κ} :
    rows.lookup k = none ↔ ∀ a, (k, a) ∉ rows := by
  induction rows with
  | nil => simp
  | cons row rows ih =>
    rw [lookup_cons]
    by_cases hk : k = row.1
    · rw [if_pos hk]
      exact iff_of_false (Option.some_ne_none _) fun h => h row.2 (by simp [hk])
    · rw [if_neg hk, ih]
      have hne : ∀ a, (k, a) ≠ row := fun a e => hk (e ▸ rfl)
      simp [hne]

/-- What a table built from a list holds is an entry of the list. -/
theorem mem_of_get?_ofList {entries : List (κ × α)} {k : κ} {a : α}
    (h : (ofList entries).get? k = some a) : (k, a) ∈ entries := by
  rw [get?_ofList] at h
  exact List.mem_reverse.1 (mem_of_lookup h)

/-- A table built from a list has a key exactly when an entry of the list has it. -/
theorem get?_ofList_eq_none {entries : List (κ × α)} {k : κ} :
    (ofList entries).get? k = none ↔ ∀ a, (k, a) ∉ entries := by
  rw [get?_ofList, lookup_eq_none_iff]
  exact forall_congr' fun _ => not_congr List.mem_reverse

theorem lookup_eq_some_iff_mem {rows : List (κ × α)} (h : (rows.map Prod.fst).Nodup) {k : κ}
    {a : α} : rows.lookup k = some a ↔ (k, a) ∈ rows := by
  induction rows with
  | nil => simp
  | cons row rows ih => grind [lookup_cons]

/-- A key has a value exactly when the row of both is there. -/
theorem get?_eq_some_iff {t : Table κ α} {k : κ} {a : α} :
    t.get? k = some a ↔ (k, a) ∈ t.rows :=
  lookup_eq_some_iff_mem t.nodup

theorem isSome_get? {t : Table κ α} {k : κ} : (t.get? k).isSome ↔ k ∈ t.keys := by
  simp only [Option.isSome_iff_exists, get?_eq_some_iff, keys, List.mem_map]
  exact ⟨fun ⟨a, h⟩ => ⟨_, h, rfl⟩, fun ⟨⟨_, a⟩, h, e⟩ => ⟨a, e ▸ h⟩⟩

theorem get?_eq_none {t : Table κ α} {k : κ} : t.get? k = none ↔ k ∉ t.keys := by
  rw [← isSome_get?, Bool.not_eq_true, Option.isSome_eq_false_iff, Option.isNone_iff_eq_none]

/-- Where no key occurs twice, the order of the rows does not matter to a look-up. -/
theorem lookup_reverse {rows : List (κ × α)} (h : (rows.map Prod.fst).Nodup) (k : κ) :
    rows.reverse.lookup k = rows.lookup k := by
  have h' : (rows.reverse.map Prod.fst).Nodup := by
    rw [List.map_reverse]
    exact (List.reverse_perm _).nodup_iff.2 h
  apply Option.ext
  intro a
  rw [lookup_eq_some_iff_mem h, lookup_eq_some_iff_mem h', List.mem_reverse]

/-- In a merge the second table has precedence. -/
theorem get?_merge (t t' : Table κ α) (k : κ) :
    (t.merge t').get? k = (t'.get? k).or (t.get? k) := by
  rw [merge, get?_insertAll, lookup_reverse t'.nodup]
  rfl

theorem get?_mapValues (f : α → β) (t : Table κ α) (k : κ) :
    (t.mapValues f).get? k = (t.get? k).map f := by
  simp only [get?, mapValues]
  induction t.rows with
  | nil => rfl
  | cons row rows ih => grind [lookup_cons]

theorem map_putRow (f : α → β) (k : κ) (a : α) (rows : List (κ × α)) :
    (putRow k a rows).map (fun row => (row.1, f row.2)) =
      putRow k (f a) (rows.map fun row => (row.1, f row.2)) := by
  induction rows with
  | nil => rfl
  | cons row rows ih => grind [putRow]

theorem mapValues_insert (f : α → β) (t : Table κ α) (k : κ) (a : α) :
    (t.insert k a).mapValues f = (t.mapValues f).insert k (f a) := by
  unfold insert mapValues
  simp only [map_putRow]

end Table

end Shading
