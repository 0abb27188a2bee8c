import Mathlib.Order.Interval.Set.Defs
import Mathlib.Order.Lattice
import Mathlib.Order.Monotone.Basic

/-! Bisection of a strictly increasing table. -/
namespace Bisection

variable {α : Type*} [LinearOrder α]

/-- An index of `x` in the window of `table` between `lo` and `hi`. The fuel bounds the
halvings. -/
def search (table : ℕ → α) (x : α) : ℕ → ℕ → ℕ → Option ℕ
  | 0, _, _ => none
  | fuel + 1, lo, hi =>
    if lo < hi then
      let mid := (lo + hi) / 2
      if table mid = x then some mid
      else if table mid < x then search table x fuel (mid + 1) hi
      else search table x fuel lo mid
    else none

variable {table : ℕ → α} {x : α}

theorem search_sound {fuel lo hi i : ℕ} (h : search table x fuel lo hi = some i) :
    lo ≤ i ∧ i < hi ∧ table i = x := by
  induction fuel generalizing lo hi with
  | zero => cases h
  | succ fuel ih =>
    unfold search at h
    split_ifs at h with hwindow
    dsimp only at h
    split_ifs at h with hfound hless
    · rw [← Option.some.inj h]
      exact ⟨by omega, by omega, hfound⟩
    · obtain ⟨hlo, hhi, hx⟩ := ih h
      exact ⟨by omega, hhi, hx⟩
    · obtain ⟨hlo, hhi, hx⟩ := ih h
      exact ⟨hlo, by omega, hx⟩

theorem search_complete {size : ℕ} (hincreasing : StrictMonoOn table (Set.Iio size))
    {fuel lo hi i : ℕ} (hfuel : hi < lo + fuel) (hlo : lo ≤ i) (hhi : i < hi) (hsize : hi ≤ size)
    (hx : table i = x) : search table x fuel lo hi = some i := by
  induction fuel generalizing lo hi with
  | zero => omega
  | succ fuel ih =>
    have hmid : (lo + hi) / 2 < size := by omega
    have hi' : i < size := by omega
    unfold search
    rw [if_pos (by omega)]
    dsimp only
    split_ifs with hfound hless
    · rw [hincreasing.injOn (Set.mem_Iio.mpr hmid) (Set.mem_Iio.mpr hi') (hfound.trans hx.symm)]
    · rw [← hx, hincreasing.lt_iff_lt (Set.mem_Iio.mpr hmid) (Set.mem_Iio.mpr hi')] at hless
      apply ih <;> omega
    · rw [← hx, hincreasing.lt_iff_lt (Set.mem_Iio.mpr hmid) (Set.mem_Iio.mpr hi')] at hless
      have hne : i ≠ (lo + hi) / 2 := by
        rintro rfl
        exact hfound hx
      apply ih <;> omega

/-- What is found in the whole of an increasing table is the one index of the value. -/
theorem search_eq_some {size i : ℕ} (hincreasing : StrictMonoOn table (Set.Iio size)) :
    search table x (size + 1) 0 size = some i ↔ i < size ∧ table i = x := by
  constructor
  · intro h
    exact (search_sound h).2
  · rintro ⟨hi, hx⟩
    apply search_complete hincreasing _ (Nat.zero_le i) hi le_rfl hx
    omega

end Bisection
