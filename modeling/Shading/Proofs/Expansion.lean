import Mathlib.Data.Finset.Prod
import Shading.Proofs.Coverage
import Shading.Proofs.Merge

/-!
# Expanded tables

The tables of a dialect are written under few names and looked up under many. Every type is put under
each of its spellings, one entry after the other, so where entries share a spelling the last of them
has it. Every method is put under each of the types that have it, which makes a product.

* `TypeEntry.Spelled`: what is a spelling of an entry.
* `get?_typeTable_eq_some_iff`: a spelling has the token of the last entry that it belongs to.
* `typeTable_last_entry_wins`: **all that an expanded table of types depends on.**
* `methodTable_append`: types that have the same methods can be expanded one after the other.
* `methodTable_is_product`: **an expanded table of methods is a product.**
-/

namespace Shading

section Order

variable {α : Type} {p : α → Prop} {r : α → α → Prop} {l l' : List α} {a b : α}

/-- `l'` has the items of `l` in another order, in which related items come as they did. -/
structure Reordered (r : α → α → Prop) (l l' : List α) : Prop where
  perm : l'.Perm l
  order : ∀ a b, r a b → [a, b].Sublist l → [a, b].Sublist l'

/-- What comes before an item that occurs once stands in front of it. -/
theorem mem_of_pair_sublist {before after : List α} (h : [b, a].Sublist (before ++ a :: after))
    (ha : a ∉ after) : b ∈ before := by
  obtain ⟨first, rest, hsplit, hfirst, hrest⟩ := List.sublist_append_iff.1 h
  cases first with
  | nil =>
    -- then `a` would come once more
    obtain rfl : [b, a] = rest := hsplit
    exact absurd (hrest.tail.subset List.mem_cons_self) ha
  | cons c first =>
    obtain rfl : b = c := List.head_eq_of_cons_eq hsplit
    exact hfirst.subset List.mem_cons_self

/-- The last item with a property stays the last one if all items with the property come as they
did. -/
theorem LastSuch.of_reordered (h : LastSuch p l a) (hnodup : l.Nodup) (hl : Reordered r l l')
    (hr : ∀ a b, p a → p b → r a b) : LastSuch p l' a := by
  obtain ⟨before, after, rfl, ha, hafter⟩ := h
  have hnodup' : l'.Nodup := hl.perm.nodup_iff.2 hnodup
  obtain ⟨before', after', rfl⟩ :=
    List.append_of_mem (hl.perm.mem_iff.2 List.mem_append_cons_self)
  refine ⟨before', after', rfl, ha, fun b hb hpb => ?_⟩
  obtain ⟨-, htail, hapart⟩ := List.nodup_append.1 hnodup'
  have hne : b ≠ a := fun hba => (List.nodup_cons.1 htail).1 (hba ▸ hb)
  -- such a `b` came before `a`, so it still does and stands on both sides of `a`
  have hbefore : b ∈ before := by
    have hmem : b ∈ before ++ a :: after :=
      hl.perm.mem_iff.1 (List.mem_append_right _ (List.mem_cons_of_mem _ hb))
    rcases List.mem_append.1 hmem with hmem | hmem
    · exact hmem
    · exact absurd hpb (hafter b ((List.mem_cons.1 hmem).resolve_left hne))
  have hpair : [b, a].Sublist (before ++ a :: after) :=
    (List.singleton_sublist.2 hbefore).append (List.singleton_sublist.2 List.mem_cons_self)
  have hpair' := hl.order b a (hr b a hpb ha) hpair
  have hbefore' : b ∈ before' := mem_of_pair_sublist hpair' (List.nodup_cons.1 htail).1
  exact hapart b hbefore' b (List.mem_cons_of_mem _ hb) rfl

end Order

/-- An entry of one of the tables that are expanded to a table of types. -/
inductive TypeEntry where
  | scalar (word token : String)
  | aggregate (name token : String)
deriving DecidableEq

namespace TypeEntry

/-- The token of the type. -/
def token : TypeEntry → String
  | scalar _ token | aggregate _ token => token

/-- `e.Spelled scope key` holds iff `key` is a spelling of the entry `e`, where aggregates are
declared in `scope`. -/
inductive Spelled (scope : String) : TypeEntry → String → Prop where
  | keyword {word token : String} : Spelled scope (scalar word token) word
  | runtime {word runtime token : String} :
    (word, runtime) ∈ scalarKeywords → Spelled scope (scalar word token) runtime
  | simple {name token : String} : Spelled scope (aggregate name token) name
  | qualified {name token : String} :
    Spelled scope (aggregate name token) (scope ++ "." ++ name)

/-- Two entries have a spelling in common. -/
def Clash (scope : String) (e e' : TypeEntry) : Prop :=
  ∃ key, e.Spelled scope key ∧ e'.Spelled scope key

/-- The entries of both tables as they come: all scalars before all aggregates. -/
def all (scalars aggregates : TypeTable) : List TypeEntry :=
  scalars.rows.map (fun row => scalar row.1 row.2) ++
    aggregates.rows.map fun row => aggregate row.1 row.2

/-- The keys that the entry is put under. -/
def spellings (scope : String) : TypeEntry → List String
  | scalar word _ => scalarSpellings word
  | aggregate name _ => aggregateSpellings scope name

theorem mem_spellings {scope key : String} {e : TypeEntry} :
    key ∈ e.spellings scope ↔ e.Spelled scope key := by
  cases e with
  | scalar word token =>
    have hkeywords : (scalarKeywords.map Prod.fst).Nodup := by decide
    rw [spellings, scalarSpellings, List.mem_cons, Option.mem_toList,
      Table.lookup_eq_some_iff_mem hkeywords]
    constructor
    · rintro (rfl | h)
      · exact .keyword
      · exact .runtime h
    · rintro (_ | h)
      · exact .inl rfl
      · exact .inr h
  | aggregate name token =>
    rw [spellings, aggregateSpellings, List.mem_cons, List.mem_singleton]
    constructor
    · rintro (rfl | rfl)
      · exact .simple
      · exact .qualified
    · rintro (_ | _)
      · exact .inl rfl
      · exact .inr rfl

/-- What is put for an entry. -/
theorem typeEntries_eq (scalars aggregates : TypeTable) (scope : String) :
    typeEntries scalars aggregates scope =
      (all scalars aggregates).flatMap fun e => (e.spellings scope).map (·, e.token) := by
  rw [all, List.flatMap_append, List.flatMap_map, List.flatMap_map]
  rfl

/-- No entry comes twice. -/
theorem nodup_all (scalars aggregates : TypeTable) : (all scalars aggregates).Nodup := by
  have hscalars : scalars.rows.Nodup := scalars.nodup.of_map
  have haggregates : aggregates.rows.Nodup := aggregates.nodup.of_map
  refine List.nodup_append.2 ⟨hscalars.map ?_, haggregates.map ?_, ?_⟩
  · rintro ⟨word, token⟩ ⟨word', token'⟩ h
    cases h
    rfl
  · rintro ⟨name, token⟩ ⟨name', token'⟩ h
    cases h
    rfl
  · rintro e he e' he' rfl
    obtain ⟨row, -, rfl⟩ := List.mem_map.1 he
    obtain ⟨row', -, h⟩ := List.mem_map.1 he'
    cases h

/-- The token that the entry puts under a key. -/
def tokenFor (scope key : String) (e : TypeEntry) : Option String :=
  if key ∈ e.spellings scope then some e.token else none

theorem isSome_tokenFor {scope key : String} {e : TypeEntry} :
    (e.tokenFor scope key).isSome = true ↔ e.Spelled scope key := by
  rw [← mem_spellings, tokenFor]
  split <;> simp [*]

theorem tokenFor_eq_some {scope key token : String} {e : TypeEntry} :
    e.tokenFor scope key = some token ↔ e.Spelled scope key ∧ e.token = token := by
  rw [← mem_spellings, tokenFor]
  split <;> simp [*]

end TypeEntry

section Lookup

variable {α β κ : Type} [DecidableEq κ]

/-- Of the items that put entries in turn, the last one that has a key counts. -/
theorem lookup_reverse_flatMap (f : α → List (κ × β)) (l : List α) (k : κ) :
    (l.flatMap f).reverse.lookup k = l.reverse.findSome? fun a => (f a).reverse.lookup k := by
  induction l with
  | nil => rfl
  | cons a l ih =>
    rw [List.flatMap_cons, List.reverse_append, List.lookup_append, ih, List.reverse_cons,
      List.findSome?_append, List.findSome?_singleton]

theorem lookup_map_pair (ks : List κ) (b : β) (k : κ) :
    (ks.map (·, b)).lookup k = if k ∈ ks then some b else none := by
  induction ks with
  | nil => rfl
  | cons k' ks ih =>
    rw [List.map_cons, Table.lookup_cons, ih]
    grind

end Lookup

open TypeEntry

variable {scalars aggregates scalars' aggregates' : TypeTable} {scope key : String}

/-- What is looked up is what the last entry with this spelling puts. -/
theorem get?_typeTable_eq_findSome? :
    (typeTable scalars aggregates scope).get? key =
      (all scalars aggregates).reverse.findSome? (tokenFor scope key) := by
  rw [get?_typeTable, typeEntries_eq, lookup_reverse_flatMap]
  congr 1
  funext e
  rw [← List.map_reverse, lookup_map_pair, tokenFor]
  simp only [List.mem_reverse]

/-- **A spelling has the token of the last entry that it belongs to.** -/
theorem get?_typeTable_eq_some_iff {token : String} :
    (typeTable scalars aggregates scope).get? key = some token ↔
      ∃ e, LastSuch (·.Spelled scope key) (all scalars aggregates) e ∧ e.token = token := by
  rw [get?_typeTable_eq_findSome?, findSome?_reverse_eq_some_iff]
  simp only [isSome_tokenFor, tokenFor_eq_some]
  constructor
  · rintro ⟨e, hlast, -, htoken⟩
    exact ⟨e, hlast, htoken⟩
  · rintro ⟨e, hlast, htoken⟩
    obtain ⟨-, -, -, hspelled, -⟩ := id hlast
    exact ⟨e, hlast, hspelled, htoken⟩

/-- An expanded table has exactly the spellings of the entries. -/
theorem mem_keys_typeTable :
    key ∈ (typeTable scalars aggregates scope).keys ↔
      ∃ e ∈ all scalars aggregates, e.Spelled scope key := by
  rw [← Table.isSome_get?, get?_typeTable_eq_findSome?, List.findSome?_isSome_iff]
  simp only [List.mem_reverse, isSome_tokenFor]

/-- Two spellings of an entry have one token if no later entry has just one of them. -/
theorem exists_token_of_spelled {before after : List TypeEntry} {e : TypeEntry} {key' : String}
    (hall : all scalars aggregates = before ++ e :: after) (h : e.Spelled scope key)
    (h' : e.Spelled scope key')
    (hafter : ∀ later ∈ after, later.Spelled scope key ↔ later.Spelled scope key') :
    ∃ token, (typeTable scalars aggregates scope).get? key = some token ∧
      (typeTable scalars aggregates scope).get? key' = some token := by
  -- the entry that counts for `key` is `e` or a later one, and so has `key'` as well
  have hsame : ∀ e' ∈ e :: after, e'.Spelled scope key ↔ e'.Spelled scope key' :=
    List.forall_mem_cons.2 ⟨iff_of_true h h', hafter⟩
  have hsome : ∃ e' ∈ e :: after, e'.Spelled scope key := ⟨e, List.mem_cons_self, h⟩
  obtain ⟨last, hlast⟩ := exists_lastSuch hsome
  have hkey : LastSuch (·.Spelled scope key) (all scalars aggregates) last := by
    rw [hall]
    exact hlast.append before
  have hkey' : LastSuch (·.Spelled scope key') (all scalars aggregates) last := by
    rw [hall]
    exact (hlast.congr hsame).append before
  exact ⟨last.token, get?_typeTable_eq_some_iff.2 ⟨last, hkey, rfl⟩,
    get?_typeTable_eq_some_iff.2 ⟨last, hkey', rfl⟩⟩

/-- The order of entries matters only where they have a spelling in common. -/
theorem get?_typeTable_of_reordered
    (h : Reordered (Clash scope) (all scalars aggregates) (all scalars' aggregates')) :
    (typeTable scalars' aggregates' scope).get? key =
      (typeTable scalars aggregates scope).get? key := by
  cases hkey : (typeTable scalars aggregates scope).get? key with
  | some token =>
    obtain ⟨e, hlast, htoken⟩ := get?_typeTable_eq_some_iff.1 hkey
    have hlast' := hlast.of_reordered (nodup_all scalars aggregates) h
      fun e e' he he' => ⟨key, he, he'⟩
    exact get?_typeTable_eq_some_iff.2 ⟨e, hlast', htoken⟩
  | none =>
    rw [Table.get?_eq_none, mem_keys_typeTable] at hkey ⊢
    simpa only [h.perm.mem_iff] using hkey

/-- **The last entry wins.** An expanded table of types has exactly the spellings of its entries, and
under each of them the token of the last entry that it belongs to, where all scalars come before all
aggregates. So two spellings of an entry have one token unless a later entry has just one of them, and
in another order the entries make the same table if those with a common spelling come as they did. -/
theorem typeTable_last_entry_wins (scalars aggregates : TypeTable) (scope : String) :
    let t := typeTable scalars aggregates scope
    (∀ key, key ∈ t.keys ↔ ∃ e ∈ all scalars aggregates, e.Spelled scope key) ∧
    (∀ key token, t.get? key = some token ↔
      ∃ e, LastSuch (·.Spelled scope key) (all scalars aggregates) e ∧ e.token = token) ∧
    (∀ before e after key key', all scalars aggregates = before ++ e :: after →
      e.Spelled scope key → e.Spelled scope key' →
      (∀ later ∈ after, later.Spelled scope key ↔ later.Spelled scope key') →
      ∃ token, t.get? key = some token ∧ t.get? key' = some token) ∧
    ∀ scalars' aggregates',
      Reordered (Clash scope) (all scalars aggregates) (all scalars' aggregates') →
      ∀ key, (typeTable scalars' aggregates' scope).get? key = t.get? key := by
  intro t
  refine ⟨fun key => mem_keys_typeTable, fun key token => get?_typeTable_eq_some_iff, ?_, ?_⟩
  · intro before e after key key' hall h h' hafter
    exact exists_token_of_spelled hall h h' hafter
  · intro scalars' aggregates' h key
    exact get?_typeTable_of_reordered h

/-- Runtime types and qualified names can be entries of their own: the last entry has them. A scalar
that clashes with none of the others may as well come first. -/
theorem clashing_spellings_expanded :
    let scope := "N"
    let scalars : TypeTable :=
      .ofList [("System.Single", "f16"), ("float", "f32"), ("bool", "b")]
    let scalars' : TypeTable :=
      .ofList [("bool", "b"), ("System.Single", "f16"), ("float", "f32")]
    let aggregates : TypeTable := .ofList [("Vector2", "v2"), ("N.Vector2", "w2")]
    let t := typeTable scalars aggregates scope
    let t' := typeTable scalars' aggregates scope
    Reordered (Clash scope) (all scalars aggregates) (all scalars' aggregates) ∧
      t.get? "N.Vector2" = some "w2" ∧
      (∃ token, t.get? "float" = some token ∧ t.get? "System.Single" = some token) ∧
      ∀ key, t'.get? key = t.get? key := by
  intro scope scalars scalars' aggregates t t'
  obtain ⟨-, hlookup, hsame, horder⟩ := typeTable_last_entry_wins scalars aggregates scope
  have hreordered : Reordered (Clash scope) (all scalars aggregates) (all scalars' aggregates) := by
    have hpairs : ∀ e ∈ all scalars aggregates, ∀ e' ∈ all scalars aggregates,
        (∃ key ∈ e.spellings scope, key ∈ e'.spellings scope) →
        [e, e'].Sublist (all scalars aggregates) → [e, e'].Sublist (all scalars' aggregates) := by
      decide +kernel
    refine ⟨by decide +kernel, fun e e' hclash h => ?_⟩
    obtain ⟨key, hkey, hkey'⟩ := hclash
    have he := h.subset List.mem_cons_self
    have he' := h.subset (List.mem_cons_of_mem _ List.mem_cons_self)
    exact hpairs e he e' he' ⟨key, mem_spellings.2 hkey, mem_spellings.2 hkey'⟩ h
  refine ⟨hreordered, ?_, ?_, horder scalars' aggregates hreordered⟩
  · refine (hlookup "N.Vector2" "w2").2 ⟨.aggregate "N.Vector2" "w2", ?_, rfl⟩
    exact ⟨(all scalars aggregates).take 4, [], rfl, .simple, nofun⟩
  · refine hsame [.scalar "System.Single" "f16"] (.scalar "float" "f32")
      [.scalar "bool" "b", .aggregate "Vector2" "v2", .aggregate "N.Vector2" "w2"] _ _ rfl
      .keyword (.runtime (by decide)) ?_
    simp only [← mem_spellings]
    decide +kernel

theorem methodEntries_append (containers containers' : List String)
    (methods : Table String String) :
    methodEntries (containers ++ containers') methods =
      methodEntries containers methods ++ methodEntries containers' methods :=
  List.flatMap_append

/-- **Types that have the same methods can be expanded one after the other.** -/
theorem methodTable_append (containers containers' : List String) (methods : Table String String) :
    methodTable (containers ++ containers') methods =
      (methodTable containers methods).merge (methodTable containers' methods) := by
  rw [methodTable, methodTable, methodTable, methodEntries_append, Table.merge_ofList]
  exact Table.insertAll_append _ _ _

theorem mem_keys_methodTable {containers : List String} {methods : Table String String}
    {key : MethodKey} :
    key ∈ (methodTable containers methods).keys ↔
      key.container ∈ containers ∧ key.name ∈ methods.keys := by
  rw [← Table.isSome_get?, isSome_get?_methodTable]

/-- There is a row for every one of the types with every one of the methods. -/
theorem size_methodTable (containers : List String) (methods : Table String String) :
    (methodTable containers methods).size = containers.toFinset.card * methods.size := by
  let pair (p : String × String) : MethodKey := ⟨p.1, p.2⟩
  have hpair : Function.Injective pair := by
    rintro ⟨container, name⟩ ⟨container', name'⟩ h
    cases h
    rfl
  have hkeys : ∀ key, key ∈ (methodTable containers methods).keys ↔
      key ∈ (containers.toFinset ×ˢ methods.keys.toFinset).image pair := by
    rintro ⟨container, name⟩
    rw [mem_keys_methodTable]
    simp [pair]
  have hmethods : methods.size = methods.keys.toFinset.card :=
    Table.size_eq_card fun name => List.mem_toFinset.symm
  rw [Table.size_eq_card hkeys, Finset.card_image_of_injective _ hpair, Finset.card_product,
    ← hmethods]

/-- **An expanded table of methods is a product**, of the types without repetitions and the methods.
-/
theorem methodTable_is_product (containers : List String) (methods : Table String String) :
    let t := methodTable containers methods
    (∀ key, key ∈ t.keys ↔ key.container ∈ containers ∧ key.name ∈ methods.keys) ∧
    (∀ container ∈ containers, ∀ name, t.get? ⟨container, name⟩ = methods.get? name) ∧
    t.size = containers.toFinset.card * methods.size ∧
    (∀ containers' methods', (∀ container, container ∈ containers' ↔ container ∈ containers) →
      methods'.rows.Perm methods.rows →
      ∀ key, (methodTable containers' methods').get? key = t.get? key) ∧
    ∀ containers',
      methodTable (containers ++ containers') methods =
        t.merge (methodTable containers' methods) ∧
      ∀ key, ((methodTable containers' methods).merge t).get? key =
        (methodTable (containers ++ containers') methods).get? key := by
  intro t
  refine ⟨fun key => mem_keys_methodTable, fun container hc name => ?_,
    size_methodTable containers methods, ?_, ?_⟩
  · rw [get?_methodTable, if_pos hc]
  · intro containers' methods' hc hm key
    rw [get?_methodTable, get?_methodTable, Table.get?_of_perm hm]
    simp only [hc]
  · intro containers'
    refine ⟨methodTable_append containers containers' methods, fun key => ?_⟩
    rw [← methodTable_append, get?_methodTable, get?_methodTable]
    simp only [List.mem_append, or_comm]

/-- A class that is listed twice counts once, and the order of the classes and methods is free. -/
theorem repeated_class_counts_once :
    let containers := ["System.Math", "System.MathF", "System.Math"]
    let containers' := ["System.MathF", "System.Math"]
    let methods : Table String String := .ofList [("Max", "max"), ("Min", "min")]
    let methods' : Table String String := .ofList [("Min", "min"), ("Max", "max")]
    (∀ container, container ∈ containers' ↔ container ∈ containers) ∧
      methods'.rows.Perm methods.rows ∧
      (methodTable containers methods).size = 4 ∧
      (methodTable containers' methods').get? ⟨"System.MathF", "Min"⟩ = some "min" := by
  intro containers containers' methods methods'
  obtain ⟨-, hvalue, hsize, horder, -⟩ := methodTable_is_product containers methods
  have hcontainers : ∀ container, container ∈ containers' ↔ container ∈ containers := by
    simp [containers, containers', or_comm]
  have hmethods : methods'.rows.Perm methods.rows := by decide
  refine ⟨hcontainers, hmethods, hsize, ?_⟩
  rw [horder containers' methods' hcontainers hmethods, hvalue _ (by decide)]
  rfl

end Shading
