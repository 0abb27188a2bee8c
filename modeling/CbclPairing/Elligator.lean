import Mathlib.NumberTheory.LegendreSymbol.QuadraticChar.Basic
import Mathlib.Tactic.LinearCombination

/-! The Elligator 2 map onto a Montgomery curve over a field: of two candidates the one
whose curve equation has a solution. -/
namespace Elligator

variable {F : Type} [Field F]

/-- The right-hand side of the curve equation. -/
def curve (A u : F) : F := u ^ 3 + A * u ^ 2 + u

/-- The first candidate, where the inverse of zero is zero. -/
def candidate (A Z r : F) : F := -A * (1 + Z * r ^ 2)⁻¹

open Classical in
/-- The coordinate of a representative. -/
noncomputable def map (A Z r : F) : F :=
  let x := if candidate A Z r = 0 then -A else candidate A Z r
  if IsSquare (curve A x) then x else -x - A

section General

variable {A Z : F}

theorem denominator_ne_zero (hZ : ¬ IsSquare (-Z)) (r : F) : 1 + Z * r ^ 2 ≠ 0 := by
  intro h
  have hr : r ≠ 0 := by
    rintro rfl
    simp at h
  apply hZ
  refine ⟨r⁻¹, ?_⟩
  have hinv : r * r⁻¹ = 1 := mul_inv_cancel₀ hr
  linear_combination Z * (r * r⁻¹ + 1) * hinv - (r⁻¹ * r⁻¹) * h

theorem candidate_ne_zero (hA : A ≠ 0) (hZ : ¬ IsSquare (-Z)) (r : F) : candidate A Z r ≠ 0 :=
  mul_ne_zero (neg_ne_zero.mpr hA) (inv_ne_zero (denominator_ne_zero hZ r))

/-- Where no denominator vanishes, the choice is between the first candidate and its
counterpart. -/
theorem map_eq (hA : A ≠ 0) (hZ : ¬ IsSquare (-Z)) (r : F)
    [Decidable (IsSquare (curve A (candidate A Z r)))] :
    map A Z r =
      if IsSquare (curve A (candidate A Z r)) then candidate A Z r else -candidate A Z r - A := by
  simp only [map, if_neg (candidate_ne_zero hA hZ r)]

/-- The curve equation of the other candidate is a multiple of that of the first. -/
theorem curve_other (hZ : ¬ IsSquare (-Z)) (r : F) :
    curve A (-candidate A Z r - A) = Z * r ^ 2 * curve A (candidate A Z r) := by
  have hcandidate : candidate A Z r * (1 + Z * r ^ 2) = -A := by
    rw [candidate, mul_assoc, inv_mul_cancel₀ (denominator_ne_zero hZ r), mul_one]
  generalize candidate A Z r = x at hcandidate ⊢
  obtain rfl : A = -(x * (1 + Z * r ^ 2)) := by linear_combination hcandidate
  simp only [curve]
  ring

/-- A curve without further points of order two vanishes at zero alone. -/
theorem curve_ne_zero (hdiscriminant : ¬ IsSquare (A ^ 2 - 4)) {x : F} (hx : x ≠ 0) :
    curve A x ≠ 0 := by
  intro h
  have hfactor : x * (x ^ 2 + A * x + 1) = 0 := by
    rw [← h, curve]
    ring
  have hzero := (mul_eq_zero.mp hfactor).resolve_left hx
  apply hdiscriminant
  exact ⟨2 * x + A, by linear_combination -4 * hzero⟩

end General

section Finite

variable [Finite F] {A Z : F}

theorem isSquare_mul_of_not {a b : F} (ha : ¬ IsSquare a) (hb : ¬ IsSquare b) :
    IsSquare (a * b) := by
  classical
  have : Fintype F := Fintype.ofFinite F
  have hne : a * b ≠ 0 := by
    apply mul_ne_zero
    · rintro rfl
      exact ha IsSquare.zero
    · rintro rfl
      exact hb IsSquare.zero
  rw [← quadraticChar_one_iff_isSquare hne, map_mul,
    quadraticChar_neg_one_iff_not_isSquare.mpr ha, quadraticChar_neg_one_iff_not_isSquare.mpr hb]
  rfl

/-- The map meets the curve, never its twist. -/
theorem isSquare_curve_map (hA : A ≠ 0) (hZ : ¬ IsSquare Z) (hnegZ : ¬ IsSquare (-Z)) (r : F) :
    IsSquare (curve A (map A Z r)) := by
  classical
  rw [map_eq hA hnegZ]
  split_ifs with hsquare
  · exact hsquare
  · rw [curve_other hnegZ, mul_right_comm]
    exact (isSquare_mul_of_not hZ hsquare).mul (IsSquare.sq r)

end Finite

/-- A sign picks the candidate: one keeps it, minus one gives its counterpart. -/
theorem signed_choice {half x e : F} (P : Prop) [Decidable P] (hone : P → e = 1)
    (hneg : ¬ P → e = -1) :
    e * x - (1 - e) * half = if P then x else -x - 2 * half := by
  split_ifs with h
  · rw [hone h]
    ring
  · rw [hneg h]
    ring

end Elligator
