import Mathlib.Algebra.BigOperators.Group.Finset.Basic
import Mathlib.Algebra.Order.BigOperators.Group.Finset
import Mathlib.Data.Finmap
import Mathlib.Data.Finset.Sort

/-! Finite tables: lookups after an update, and sums over all entries. -/
namespace Tables

/-- A finite table from keys to values. -/
abbrev Table (κ ν : Type) := Finmap fun _ : κ => ν

namespace Table

variable {κ ν : Type} [DecidableEq κ] {t : Table κ ν} {k : κ} {v : ν}

theorem lookup_insert_if (t : Table κ ν) (k j : κ) (v : ν) :
    Finmap.lookup j (Finmap.insert k v t : Table κ ν) = if j = k then some v else t.lookup j := by
  split_ifs with h
  · subst h
    exact Finmap.lookup_insert t
  · exact Finmap.lookup_insert_of_ne t h

theorem lookup_erase_if (t : Table κ ν) (k j : κ) :
    (t.erase k).lookup j = if j = k then none else t.lookup j := by
  split_ifs with h
  · subst h
    exact Finmap.lookup_erase j t
  · exact Finmap.lookup_erase_ne h

theorem keys_insert (t : Table κ ν) (k : κ) (v : ν) :
    Finmap.keys (Finmap.insert k v t : Table κ ν) = insert k t.keys := by
  ext j
  rw [Finmap.mem_keys, Finmap.mem_insert, Finset.mem_insert, Finmap.mem_keys]

/-- The sum of a weight over the values of a table. -/
def total (f : ν → ℕ) (t : Table κ ν) : ℕ := ∑ k ∈ t.keys, (t.lookup k).elim 0 f

@[simp] theorem total_empty (f : ν → ℕ) : total f (∅ : Table κ ν) = 0 := by
  simp [total]

/-- Taking an entry out takes its weight out of the sum. -/
theorem total_erase (f : ν → ℕ) (h : t.lookup k = some v) : total f (t.erase k) + f v = total f t := by
  have hmem : k ∈ t.keys := Finmap.mem_keys.mpr (Finmap.mem_of_lookup_eq_some h)
  have hsame : ∀ j ∈ t.keys.erase k, ((t.erase k).lookup j).elim 0 f = (t.lookup j).elim 0 f := by
    intro j hj
    rw [lookup_erase_if, if_neg (Finset.ne_of_mem_erase hj)]
  unfold total
  rw [Finmap.keys_erase, Finset.sum_congr rfl hsame,
    ← Finset.sum_erase_add t.keys (fun j => (t.lookup j).elim 0 f) hmem, h]
  rfl

theorem total_insert_new (f : ν → ℕ) (h : k ∉ t) :
    total f (Finmap.insert k v t : Table κ ν) = total f t + f v := by
  have hmem : k ∉ t.keys := fun hk => h (Finmap.mem_keys.mp hk)
  have hsame : ∀ j ∈ t.keys,
      (Finmap.lookup j (Finmap.insert k v t : Table κ ν)).elim 0 f = (t.lookup j).elim 0 f := by
    intro j hj
    rw [lookup_insert_if, if_neg]
    rintro rfl
    exact hmem hj
  unfold total
  rw [keys_insert, Finset.sum_insert hmem, Finset.sum_congr rfl hsame, Finmap.lookup_insert,
    Nat.add_comm]
  rfl

/-- Replacing an entry replaces its weight in the sum. -/
theorem total_insert (f : ν → ℕ) {w : ν} (h : t.lookup k = some v) :
    total f (Finmap.insert k w t : Table κ ν) + f v = total f t + f w := by
  have herase : (Finmap.insert k w t : Table κ ν) = Finmap.insert k w (t.erase k) := by
    apply Finmap.ext_lookup
    intro j
    rw [lookup_insert_if, lookup_insert_if, lookup_erase_if]
    split_ifs <;> rfl
  have hnew : k ∉ t.erase k := Finmap.notMem_erase_self
  have hold := total_erase f h
  rw [herase, total_insert_new f hnew]
  omega

theorem le_total (f : ν → ℕ) (h : t.lookup k = some v) : f v ≤ total f t := by
  have := total_erase f h
  omega

/-- A table inside another has no larger sum. -/
theorem total_mono (f : ν → ℕ) {u : Table κ ν}
    (h : ∀ j w, t.lookup j = some w → u.lookup j = some w) : total f t ≤ total f u := by
  have hsub : t.keys ⊆ u.keys := by
    intro j hj
    obtain ⟨w, hw⟩ := Finmap.mem_iff.mp (Finmap.mem_keys.mp hj)
    exact Finmap.mem_keys.mpr (Finmap.mem_of_lookup_eq_some (h j w hw))
  have hsame : ∀ j ∈ t.keys, (t.lookup j).elim 0 f = (u.lookup j).elim 0 f := by
    intro j hj
    obtain ⟨w, hw⟩ := Finmap.mem_iff.mp (Finmap.mem_keys.mp hj)
    rw [hw, h j w hw]
  unfold total
  rw [Finset.sum_congr rfl hsame]
  exact Finset.sum_le_sum_of_subset hsub

/-- The number of entries. -/
def size (t : Table κ ν) : ℕ := t.keys.card

theorem size_insert_new (h : k ∉ t) : size (Finmap.insert k v t : Table κ ν) = size t + 1 := by
  unfold size
  rw [keys_insert, Finset.card_insert_of_notMem fun hk => h (Finmap.mem_keys.mp hk)]

theorem size_insert (h : t.lookup k = some v) {w : ν} :
    size (Finmap.insert k w t : Table κ ν) = size t := by
  unfold size
  rw [keys_insert,
    Finset.insert_eq_of_mem (Finmap.mem_keys.mpr (Finmap.mem_of_lookup_eq_some h))]

theorem size_erase_le (t : Table κ ν) (k : κ) : size (t.erase k) ≤ size t := by
  unfold size
  rw [Finmap.keys_erase]
  exact Finset.card_erase_le

end Table

/-! ### The least element of a set -/

section First

variable {α : Type} (r : α → α → Prop) [DecidableRel r] [IsTrans α r] [Std.Antisymm r]
  [Std.Total r]

/-- The first element in the order of a relation. -/
def first (s : Finset α) : Option α := (s.sort r).head?

theorem first_eq_none {s : Finset α} (h : first r s = none) : s = ∅ := by
  have hnil : s.sort r = [] := List.head?_eq_none_iff.mp h
  rw [← Finset.card_eq_zero, ← Finset.length_sort r, hnil]
  rfl

theorem first_mem {s : Finset α} {a : α} (h : first r s = some a) : a ∈ s :=
  (Finset.mem_sort r).mp (List.mem_of_mem_head? h)

theorem first_le {s : Finset α} {a b : α} (h : first r s = some a) (hb : b ∈ s) : r a b := by
  obtain ⟨rest, hrest⟩ := List.head?_eq_some_iff.mp h
  have hsorted := s.pairwise_sort r
  have hmem := (Finset.mem_sort r).mpr hb
  rw [hrest] at hsorted hmem
  obtain rfl | hmem := List.mem_cons.mp hmem
  · exact (Std.Total.total b b).elim id id
  · exact List.rel_of_pairwise_cons hsorted hmem

/-- Without the first element the rest is in the same order. -/
theorem sort_eq_first_cons [DecidableEq α] {s : Finset α} {a : α} (h : first r s = some a) :
    s.sort r = a :: (s.erase a).sort r := by
  have hmem := first_mem r h
  have hle : ∀ b ∈ s.erase a, r a b := fun b hb => first_le r h (Finset.mem_of_mem_erase hb)
  rw [← Finset.sort_insert r hle (Finset.notMem_erase a s), Finset.insert_erase hmem]

end First
end Tables
