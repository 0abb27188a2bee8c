import CbclPairing.Elligator
import CbclPairing.FieldElements
import Mathlib.NumberTheory.LegendreSymbol.QuadraticReciprocity
import Mathlib.Tactic.NormNum.Prime
import Mathlib.Tactic.ReduceModChar

/-! The generator map of CPace: the Elligator 2 map of Curve25519, in the encoding of the
curve. -/
namespace CbclPairing
namespace Cpace
open Codec

/-! ### The prime -/

theorem prime_2773320623 : Nat.Prime 2773320623 := by
  apply Powers.prime_of_factors 5 [2, 2437, 569003]
  · norm_num
  · norm_num
  · norm_num
    reduce_mod_char
  · norm_num
    reduce_mod_char
    decide

theorem prime_72106336199 : Nat.Prime 72106336199 := by
  apply Powers.prime_of_factors 7 [2, 13, 2773320623]
  · simp only [List.forall_mem_cons, List.not_mem_nil, false_implies, implies_true, and_true]
    exact ⟨by norm_num, by norm_num, prime_2773320623⟩
  · norm_num
  · norm_num
    reduce_mod_char
  · norm_num
    reduce_mod_char
    decide

theorem prime_1919519569386763 : Nat.Prime 1919519569386763 := by
  apply Powers.prime_of_factors 2 [2, 3, 7, 19, 47, 47, 127, 8574133]
  · norm_num
  · norm_num
  · norm_num
    reduce_mod_char
  · norm_num
    reduce_mod_char
    decide

theorem prime_31757755568855353 : Nat.Prime 31757755568855353 := by
  apply Powers.prime_of_factors 10 [2, 2, 2, 3, 31, 107, 223, 4153, 430751]
  · norm_num
  · norm_num
  · norm_num
    reduce_mod_char
  · norm_num
    reduce_mod_char
    decide

theorem prime_75445702479781427272750846543864801 :
    Nat.Prime 75445702479781427272750846543864801 := by
  apply Powers.prime_of_factors 7
    [2, 2, 2, 2, 2, 3, 3, 5, 5, 75707, 72106336199, 1919519569386763]
  · simp only [List.forall_mem_cons, List.not_mem_nil, false_implies, implies_true, and_true]
    exact ⟨Nat.prime_two, Nat.prime_two, Nat.prime_two, Nat.prime_two, Nat.prime_two,
      Nat.prime_three, Nat.prime_three, Nat.prime_five, Nat.prime_five, by norm_num,
      prime_72106336199, prime_1919519569386763⟩
  · norm_num
  · norm_num
    reduce_mod_char
  · norm_num
    reduce_mod_char
    decide

theorem prime_74058212732561358302231226437062788676166966415465897661863160754340907 :
    Nat.Prime 74058212732561358302231226437062788676166966415465897661863160754340907 := by
  apply Powers.prime_of_factors 2 [2, 3, 353, 57467, 132049, 1923133, 31757755568855353,
    75445702479781427272750846543864801]
  · simp only [List.forall_mem_cons, List.not_mem_nil, false_implies, implies_true, and_true]
    exact ⟨Nat.prime_two, Nat.prime_three, by norm_num, by norm_num, by norm_num, by norm_num,
      prime_31757755568855353, prime_75445702479781427272750846543864801⟩
  · norm_num
  · norm_num
    reduce_mod_char
  · norm_num
    reduce_mod_char
    decide

theorem fieldPrime_eq : fieldPrime =
    57896044618658097711785492504343953926634992332820282019728792003956564819949 := rfl

theorem prime_fieldPrime : fieldPrime.Prime := by
  rw [fieldPrime_eq]
  apply Powers.prime_of_factors 2 [2, 2, 3, 65147,
    74058212732561358302231226437062788676166966415465897661863160754340907]
  · simp only [List.forall_mem_cons, List.not_mem_nil, false_implies, implies_true, and_true]
    exact ⟨Nat.prime_two, Nat.prime_two, Nat.prime_three, by norm_num,
      prime_74058212732561358302231226437062788676166966415465897661863160754340907⟩
  · norm_num
  · norm_num
    reduce_mod_char
  · norm_num
    reduce_mod_char
    decide

instance : Fact fieldPrime.Prime := ⟨prime_fieldPrime⟩

/-! ### Residues and non-residues -/

theorem fieldPrime_ne_two : fieldPrime ≠ 2 := by decide

theorem fieldPrime_mod_eight : fieldPrime % 8 = 5 := by decide

theorem not_isSquare_two : ¬ IsSquare (2 : ZMod fieldPrime) := by
  rw [ZMod.exists_sq_eq_two_iff fieldPrime_ne_two, fieldPrime_mod_eight]
  omega

theorem not_isSquare_neg_two : ¬ IsSquare (-2 : ZMod fieldPrime) := by
  rw [ZMod.exists_sq_eq_neg_two_iff fieldPrime_ne_two, fieldPrime_mod_eight]
  omega

theorem discriminant_pow {p : ℕ} (h : p =
    57896044618658097711785492504343953926634992332820282019728792003956564819949) :
    ((486662 : ZMod p) ^ 2 - 4) ^ (p / 2) = -1 := by
  subst h
  norm_num
  reduce_mod_char

theorem neg_one_ne_one : (-1 : ZMod fieldPrime) ≠ 1 := by
  have : Fact (2 < fieldPrime) := ⟨by decide⟩
  exact ZMod.neg_one_ne_one

theorem not_isSquare_discriminant : ¬ IsSquare ((curveA : ZMod fieldPrime) ^ 2 - 4) := by
  intro hsquare
  have hpow : ((curveA : ZMod fieldPrime) ^ 2 - 4) ^ (fieldPrime / 2) = -1 :=
    discriminant_pow fieldPrime_eq
  have hne : (curveA : ZMod fieldPrime) ^ 2 - 4 ≠ 0 := by
    intro hzero
    rw [hzero, zero_pow (by decide)] at hpow
    exact neg_ne_zero.mpr one_ne_zero hpow.symm
  rw [(ZMod.euler_criterion fieldPrime hne).mp hsquare] at hpow
  exact neg_one_ne_one hpow.symm

theorem curveA_ne_zero : (curveA : ZMod fieldPrime) ≠ 0 := by
  rw [Ne, ZMod.natCast_eq_zero_iff]
  decide

/-- Raising to the prime less two inverts, and takes zero to itself. -/
theorem pow_primeMinusTwo (x : ZMod fieldPrime) : x ^ ofLe primeMinusTwo = x⁻¹ := by
  have hexponent : ofLe primeMinusTwo = fieldPrime - 2 := by decide
  rw [hexponent]
  by_cases hx : x = 0
  · rw [hx, zero_pow (by decide), inv_zero]
  · apply eq_inv_of_mul_eq_one_left
    rw [← pow_succ]
    exact ZMod.pow_card_sub_one_eq_one hx

/-- Raising to half the prime tells squares from non-squares. -/
theorem pow_primeMinusOneOverTwo {x : ZMod fieldPrime} (hx : x ≠ 0) :
    (IsSquare x → x ^ ofLe primeMinusOneOverTwo = 1) ∧
      (¬ IsSquare x → x ^ ofLe primeMinusOneOverTwo = -1) := by
  have hexponent : ofLe primeMinusOneOverTwo = fieldPrime / 2 := by decide
  rw [hexponent, ZMod.euler_criterion fieldPrime hx]
  exact ⟨id, (ZMod.pow_div_two_eq_neg_one_or_one fieldPrime hx).resolve_left⟩

/-! ### The map -/

/-- The residue a representative is mapped to. -/
noncomputable def generatorCoordinate (representative : Octets 32) : ZMod fieldPrime :=
  Elligator.map curveA 2 (ofLe (clearTopBit representative).val)

/-- The formula of the program: an inverse and a power choose between the candidates. -/
theorem formula_eq (r : ZMod fieldPrime) :
    let v := -(curveA : ZMod fieldPrime) * (1 + (1 + 1) * (r * r)) ^ ofLe primeMinusTwo
    let epsilon := (v * (v * v + curveA * v + 1)) ^ ofLe primeMinusOneOverTwo
    epsilon * v - (1 - epsilon) * (curveAOverTwo : ZMod fieldPrime) =
      Elligator.map (curveA : ZMod fieldPrime) 2 r := by
  classical
  have hcandidate : -(curveA : ZMod fieldPrime) * (1 + (1 + 1) * (r * r)) ^ ofLe primeMinusTwo =
      Elligator.candidate (curveA : ZMod fieldPrime) 2 r := by
    rw [pow_primeMinusTwo, Elligator.candidate, one_add_one_eq_two, sq]
  have hcurve (v : ZMod fieldPrime) : v * (v * v + curveA * v + 1) = Elligator.curve ↑curveA v := by
    rw [Elligator.curve]
    ring
  simp only [hcandidate, hcurve]
  have hne := Elligator.curve_ne_zero not_isSquare_discriminant
    (Elligator.candidate_ne_zero curveA_ne_zero not_isSquare_neg_two r)
  have hsign := pow_primeMinusOneOverTwo hne
  have hhalf : (2 : ZMod fieldPrime) * curveAOverTwo = curveA := by
    rw [curveA, curveAOverTwo]
    norm_num
  rw [Elligator.signed_choice _ hsign.1 hsign.2, hhalf,
    Elligator.map_eq curveA_ne_zero not_isSquare_neg_two]

set_option maxRecDepth 2048 in
theorem toNat_and_lt : ∀ b : UInt8, (b &&& 0x7f).toNat < 128 := by decide

/-- The octets with the top bit cleared denote a number of 255 bits. -/
theorem ofLe_clearTopBit (bytes : Octets 32) : ofLe (clearTopBit bytes).val < 2 ^ 255 := by
  obtain ⟨value, hvalue⟩ := bytes
  show ofBe (value.modify 31 (· &&& 0x7f)).reverse < 2 ^ 255
  rcases List.eq_nil_or_concat value with rfl | ⟨init, last, rfl⟩
  · simp at hvalue
  rw [List.concat_eq_append] at hvalue ⊢
  have hinit : init.length = 31 := by
    rw [List.length_append, List.length_singleton] at hvalue
    omega
  have hmodify : (init ++ [last]).modify 31 (· &&& 0x7f) = init ++ [last &&& 0x7f] := by
    rw [List.modify_eq_take_drop, List.take_left' hinit, List.drop_left' hinit]
    rfl
  have hlast := toNat_and_lt last
  have hrest := ofBe_lt init.reverse
  rw [List.length_reverse, hinit] at hrest
  rw [hmodify, List.reverse_append, List.reverse_singleton, List.singleton_append, ofBe_cons,
    List.length_reverse, hinit]
  omega

namespace FieldElement

/-- The program over limbs returns the encoding of the map. -/
theorem elligator2_eq [Fiat25519] (h : Fiat25519.Lawful) (representative : Octets 32) :
    elligator2Curve25519 representative = toLe 32 (generatorCoordinate representative).val := by
  have hr := h.fromBytes (clearTopBit representative) (ofLe_clearTopBit representative)
  have hdenominator := add_represents h one_represents
    (mul_represents h (add_represents h one_represents one_represents) (square_represents h hr))
  have hv := mul_represents h (neg_represents h curveA_represents)
    (pow_represents h hdenominator primeMinusTwo)
  have hcurve := mul_represents h hv (add_represents h
    (add_represents h (square_represents h hv) (mul_represents h curveA_represents hv))
    one_represents)
  have hepsilon := pow_represents h hcurve primeMinusOneOverTwo
  have hu := sub_represents h (mul_represents h hepsilon hv)
    (mul_represents h (sub_represents h one_represents hepsilon) curveAOverTwo_represents)
  rw [formula_eq] at hu
  exact h.toBytes hu

end FieldElement

theorem elligator2_eq (representative : Octets 32) :
    elligator2Curve25519 representative = toLe 32 (generatorCoordinate representative).val := by
  have hformula := formula_eq (ofLe (clearTopBit representative).val)
  simp only [elligator2Curve25519, fieldInvert]
  rw [generatorCoordinate, ← hformula, ← ZMod.val_natCast_of_lt (fieldSub_lt _ _)]
  simp only [cast_fieldSub, cast_fieldMul, cast_fieldPow, cast_fieldAdd, cast_fieldSquare,
    cast_fieldNeg, Nat.cast_one]

theorem ofLe_toLe {n x : ℕ} (h : x < 256 ^ n) : ofLe (toLe n x).val = x := by
  rw [ofLe, toLe, List.reverse_reverse, ofBe_beBytes h]

theorem isSquare_generatorCoordinate (representative : Octets 32) :
    IsSquare (Elligator.curve (curveA : ZMod fieldPrime) (generatorCoordinate representative)) :=
  Elligator.isSquare_curve_map curveA_ne_zero not_isSquare_two not_isSquare_neg_two _

/-- Every CPace generator is a coordinate of the curve, in its one encoding. -/
theorem calculateGenerator_curve [Primitives] (prs channelIdentifier sessionId : Bytes) :
    ∃ u : ZMod fieldPrime, calculateGenerator prs channelIdentifier sessionId = toLe 32 u.val ∧
      IsSquare (Elligator.curve (curveA : ZMod fieldPrime) u) :=
  ⟨_, elligator2_eq _, isSquare_generatorCoordinate _⟩

/-- The map of the program is Elligator 2: the denominator it inverts is no zero, the octets
it returns are the one encoding of the coordinate that the map names, and the coordinate is
on the curve. Limbs and residues agree on it. -/
theorem elligator2_curve25519_correct [Fiat25519] (h : Fiat25519.Lawful)
    (representative : Octets 32) :
    1 + 2 * (ofLe (clearTopBit representative).val : ZMod fieldPrime) ^ 2 ≠ 0 ∧
    FieldElement.elligator2Curve25519 representative =
      toLe 32 (generatorCoordinate representative).val ∧
    ofLe (FieldElement.elligator2Curve25519 representative).val < fieldPrime ∧
    (∃ y, generatorCoordinate representative ^ 3 +
      curveA * generatorCoordinate representative ^ 2 + generatorCoordinate representative =
        y ^ 2) ∧
    FieldElement.elligator2Curve25519 representative = elligator2Curve25519 representative := by
  have hlimbs := FieldElement.elligator2_eq h representative
  have hlt := ZMod.val_lt (generatorCoordinate representative)
  refine ⟨Elligator.denominator_ne_zero not_isSquare_neg_two _, hlimbs, ?_, ?_, ?_⟩
  · rw [hlimbs, ofLe_toLe (hlt.trans (by decide))]
    exact hlt
  · obtain ⟨y, hy⟩ := isSquare_generatorCoordinate representative
    exact ⟨y, by rw [sq y, ← hy, Elligator.curve]⟩
  · rw [hlimbs, elligator2_eq]

/-- Zero is mapped so by operations that reduce every result. -/
theorem elligator2_curve25519_zero :
    1 + 2 * (ofLe (clearTopBit (Octets.replicate 32 0)).val : ZMod fieldPrime) ^ 2 ≠ 0 ∧
    @FieldElement.elligator2Curve25519 Fiat25519.reduced (Octets.replicate 32 0) =
      toLe 32 (generatorCoordinate (Octets.replicate 32 0)).val ∧
    ofLe (@FieldElement.elligator2Curve25519 Fiat25519.reduced (Octets.replicate 32 0)).val <
      fieldPrime ∧
    (∃ y, generatorCoordinate (Octets.replicate 32 0) ^ 3 +
      curveA * generatorCoordinate (Octets.replicate 32 0) ^ 2 +
        generatorCoordinate (Octets.replicate 32 0) = y ^ 2) ∧
    @FieldElement.elligator2Curve25519 Fiat25519.reduced (Octets.replicate 32 0) =
      elligator2Curve25519 (Octets.replicate 32 0) :=
  @elligator2_curve25519_correct Fiat25519.reduced Fiat25519.reduced_lawful
    (Octets.replicate 32 0)

end Cpace
end CbclPairing
