import Mathlib.Data.Finset.Erase
import Mathlib.Data.Finset.Insert
import Mathlib.Data.List.Basic
import Mathlib.Tactic.SplitIfs

/-! Stamps of last use: where a history last mentions a key, keys that are stamped with that
place, and an index that holds every stamped key under its stamp. -/
namespace RecencyOrder

section History

variable {κ : Type} {history : List κ} {k k' : κ} {i j : ℕ}

/-- The last mention of a key in a history. -/
def LastAt (history : List κ) (k : κ) (i : ℕ) : Prop :=
  history[i]? = some k ∧ ∀ j, i < j → history[j]? ≠ some k

theorem LastAt.lt (h : LastAt history k i) : i < history.length := by
  by_contra hout
  have hnone := List.getElem?_eq_none (Nat.le_of_not_lt hout)
  cases h.1.symm.trans hnone

theorem LastAt.unique (h : LastAt history k i) (h' : LastAt history k j) : i = j := by
  rcases Nat.lt_trichotomy i j with hlt | heq | hgt
  · exact absurd h'.1 (h.2 j hlt)
  · exact heq
  · exact absurd h.1 (h'.2 i hgt)

/-- One place of a history mentions one key. -/
theorem LastAt.same (h : LastAt history k i) (h' : LastAt history k' i) : k = k' := by
  apply Option.some.inj
  rw [← h.1, ← h'.1]

theorem lastAt_append_self (history : List κ) (k : κ) :
    LastAt (history ++ [k]) k history.length := by
  constructor
  · simp
  · intro j hj
    rw [List.getElem?_eq_none]
    · intro h
      cases h
    · rw [List.length_append, List.length_singleton]
      omega

theorem LastAt.append (h : LastAt history k i) (hne : k' ≠ k) :
    LastAt (history ++ [k']) k i := by
  constructor
  · rw [List.getElem?_append_left h.lt]
    exact h.1
  · intro j hj
    rcases Nat.lt_trichotomy j history.length with hlt | heq | hgt
    · rw [List.getElem?_append_left hlt]
      exact h.2 j hj
    · rw [heq, List.getElem?_concat_length]
      simp [hne]
    · rw [List.getElem?_eq_none]
      · intro h
        cases h
      · rw [List.length_append, List.length_singleton]
        omega

end History

section Stamps

variable {ν κ : Type} {f : ν → ℕ} {history : List κ} {stamp stamp' : κ → Option ν} {k j : κ}
  {n : ν}

/-- Every stamp is the place of the last mention of its key. -/
def Stamped (f : ν → ℕ) (history : List κ) (stamp : κ → Option ν) : Prop :=
  ∀ k n, stamp k = some n → LastAt history k (f n)

theorem Stamped.mono (h : Stamped f history stamp)
    (hfewer : ∀ k n, stamp' k = some n → stamp k = some n) : Stamped f history stamp' :=
  fun k n hk => h k n (hfewer k n hk)

/-- The key mentioned last bears the last place, and nothing else changes. -/
theorem Stamped.used (h : Stamped f history stamp)
    (hself : ∀ n, stamp' k = some n → f n = history.length)
    (hothers : ∀ j, j ≠ k → ∀ n, stamp' j = some n → stamp j = some n) :
    Stamped f (history ++ [k]) stamp' := by
  intro j n hj
  by_cases hjk : j = k
  · subst hjk
    rw [hself n hj]
    exact lastAt_append_self history j
  · apply (h j n (hothers j hjk n hj)).append
    exact Ne.symm hjk

theorem Stamped.lt (h : Stamped f history stamp) (hk : stamp k = some n) :
    f n < history.length := (h k n hk).lt

/-- No two keys bear one stamp. -/
theorem Stamped.distinct (h : Stamped f history stamp) (hk : stamp k = some n)
    (hj : stamp j = some n) : k = j := (h k n hk).same (h j n hj)

end Stamps

section Indexes

variable {ν κ : Type} [DecidableEq ν] [DecidableEq κ] {index : Finset (ν × κ)}
  {stamp stamp' : κ → Option ν} {k : κ} {n : ν}

/-- An index holds every stamped key under its stamp, and nothing else. -/
def Indexes (index : Finset (ν × κ)) (stamp : κ → Option ν) : Prop :=
  ∀ n k, (n, k) ∈ index ↔ stamp k = some n

theorem Indexes.erase (h : Indexes index stamp) (hk : stamp k = some n)
    (hstamp : ∀ j, stamp' j = if j = k then none else stamp j) :
    Indexes (index.erase (n, k)) stamp' := by
  intro m j
  rw [Finset.mem_erase, h m j, hstamp, ne_eq, Prod.mk.injEq]
  split_ifs with hj
  · subst hj
    rw [hk]
    constructor
    · rintro ⟨hne, heq⟩
      exact absurd ⟨(Option.some.inj heq).symm, rfl⟩ hne
    · intros
      contradiction
  · simp [hj]

theorem Indexes.insert (h : Indexes index stamp) (hk : stamp k = none)
    (hstamp : ∀ j, stamp' j = if j = k then some n else stamp j) :
    Indexes (Insert.insert (n, k) index) stamp' := by
  intro m j
  rw [Finset.mem_insert, h m j, hstamp, Prod.mk.injEq]
  split_ifs with hj
  · subst hj
    simp [hk, eq_comm]
  · simp [hj]

end Indexes

end RecencyOrder
