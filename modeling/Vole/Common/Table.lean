import Mathlib.Algebra.BigOperators.Group.List.Basic
import Mathlib.Data.List.AList

/-!
# Tables

A hash map is an association list without duplicate keys, and whoever
iterates over it does so in any order of its keys. What is summed over the
entries of a table does not depend on that order, and changes with an entry
by that entry's part.
-/

namespace Vole

open List Option AList

/-- `std::collections::HashMap`. -/
abbrev Table (κ α : Type) := AList fun _ : κ => α

namespace Table

variable {κ α : Type} [DecidableEq κ] {M : Type} [AddCommMonoid M]

/-- An entry and the others. -/
theorem entries_perm {table : Table κ α} {key : κ} {value : α} (h : table.lookup key = some value) :
    table.entries.Perm (⟨key, value⟩ :: (table.erase key).entries) := by
  have hmem : key ∈ table.entries.keys := lookup_isSome.mp (by rw [h]; rfl)
  obtain ⟨other, before, after, -, hentries, herase⟩ := exists_of_kerase hmem
  have hin : (⟨key, value⟩ : Sigma fun _ : κ => α) ∈ table.entries := mem_lookup_iff.mp h
  have hother : (⟨key, other⟩ : Sigma fun _ : κ => α) ∈ table.entries := by
    rw [hentries]
    exact mem_append_right _ mem_cons_self
  have hvalue : other = value :=
    eq_of_heq (List.NodupKeys.eq_of_mk_mem table.nodupKeys hother hin ▸ HEq.rfl)
  have hrest : (table.erase key).entries = before ++ after := herase
  rw [hrest, hentries, hvalue]
  exact perm_middle

/-- The sum of what the entries of a table count for. -/
def total (f : κ → α → M) (table : Table κ α) : M :=
  (table.entries.map fun entry => f entry.1 entry.2).sum

variable {f : κ → α → M} {table : Table κ α} {key : κ} {value : α}

/-- **An entry counts once.** -/
theorem total_of_lookup (h : table.lookup key = some value) :
    total f table = f key value + total f (table.erase key) := by
  unfold total
  rw [((entries_perm h).map fun entry => f entry.1 entry.2).sum_eq, map_cons, sum_cons]

theorem erase_of_lookup (h : table.lookup key = none) : table.erase key = table :=
  ext (kerase_of_notMem_keys (lookup_eq_none.mp h))

/-- **A new entry counts for what it is.** -/
theorem total_insert (value : α) :
    total f (table.insert key value) = f key value + total f (table.erase key) := by
  have hlookup : (table.insert key value).lookup key = some value := lookup_insert table
  have herase : (table.insert key value).erase key = table.erase key := by
    refine ext ?_
    exact kerase_cons_eq (s := (⟨key, value⟩ : Sigma fun _ : κ => α)) rfl
  rw [total_of_lookup hlookup, herase]

/-- The number of entries. -/
def size (table : Table κ α) : ℕ := table.entries.length

theorem size_of_lookup (h : table.lookup key = some value) :
    size table = size (table.erase key) + 1 := by
  unfold size
  rw [(entries_perm h).length_eq, length_cons]

theorem size_insert (value : α) : size (table.insert key value) = size (table.erase key) + 1 := by
  show (kinsert key value table.entries).length = _
  rfl

theorem size_erase_le : size (table.erase key) ≤ size table :=
  (kerase_sublist key table.entries).length_le

theorem lookup_insert_apply {other : κ} : (table.insert key value).lookup other =
    if other = key then some value else table.lookup other := by
  split_ifs with h
  · rw [h, lookup_insert]
  · exact lookup_insert_ne h

theorem lookup_erase_apply {other : κ} :
    (table.erase key).lookup other = if other = key then none else table.lookup other := by
  split_ifs with h
  · rw [h, lookup_erase]
  · exact lookup_erase_ne h

theorem mem_keys_of_lookup (h : table.lookup key = some value) : key ∈ table.keys :=
  lookup_isSome.mp (by rw [h]; rfl)

theorem exists_lookup (h : key ∈ table.keys) : ∃ value, table.lookup key = some value :=
  isSome_iff_exists.mp (lookup_isSome.mpr h)

/-! ## Retaining -/

/-- `HashMap::retain`. -/
def retain (keep : κ → α → Bool) (table : Table κ α) : Table κ α where
  entries := table.entries.filter fun entry => keep entry.1 entry.2
  nodupKeys := List.NodupKeys.sublist filter_sublist table.nodupKeys

theorem lookup_retain (keep : κ → α → Bool) :
    (retain keep table).lookup key = (table.lookup key).filter (keep key) := by
  refine ext fun value => ?_
  rw [filter_eq_some_iff]
  show value ∈ (retain keep table).lookup key ↔ value ∈ table.lookup key ∧ keep key value = true
  rw [mem_lookup_iff, mem_lookup_iff, retain, mem_filter]

end Table

end Vole
