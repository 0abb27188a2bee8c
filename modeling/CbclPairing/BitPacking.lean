import CbclPairing.Codec.Octets
import Mathlib.Data.Nat.Bitwise

/-! Texts of digits as texts of bits, the most significant bit of each digit first. Two
texts over digits of different widths can be compared position by position. -/
namespace BitPacking

/-- The bit at a position of a text of `w`-bit digits. Behind the last digit there are zeros. -/
def bitAt (w : ℕ) (digits : List UInt8) (position : ℕ) : Bool :=
  (digits.getD (position / w) 0).toNat.testBit (w - 1 - position % w)

theorem bitAt_zeros (w n position : ℕ) : bitAt w (List.replicate n 0) position = false := by
  unfold bitAt
  rw [List.getD_eq_getElem?_getD, List.getElem?_replicate]
  split_ifs <;> simp

theorem bitAt_digit {w : ℕ} (digits : List UInt8) {i j : ℕ} (h : j < w) :
    bitAt w digits (i * w + j) = (digits.getD i 0).toNat.testBit (w - 1 - j) := by
  have hdiv : (i * w + j) / w = i := by
    rw [Nat.mul_comm, Nat.mul_add_div (by omega), Nat.div_eq_of_lt h, Nat.add_zero]
  have hmod : (i * w + j) % w = j := by
    rw [Nat.mul_comm, Nat.mul_add_mod, Nat.mod_eq_of_lt h]
  rw [bitAt, hdiv, hmod]

/-- A digit is its bits. -/
theorem digit_ext {w : ℕ} {a b : UInt8} (ha : a.toNat < 2 ^ w) (hb : b.toNat < 2 ^ w)
    (h : ∀ j < w, a.toNat.testBit (w - 1 - j) = b.toNat.testBit (w - 1 - j)) : a = b := by
  apply UInt8.toNat_inj.mp
  apply Nat.eq_of_testBit_eq
  intro i
  by_cases hi : i < w
  · have hbit := h (w - 1 - i) (by omega)
    rwa [show w - 1 - (w - 1 - i) = i by omega] at hbit
  · have hle : 2 ^ w ≤ 2 ^ i := Nat.pow_le_pow_right (by decide) (by omega)
    rw [Nat.testBit_lt_two_pow (by omega), Nat.testBit_lt_two_pow (by omega)]

/-- A text is its bits, for texts of one length. -/
theorem eq_of_bitAt {w : ℕ} {a b : List UInt8} (hlength : a.length = b.length)
    (ha : ∀ x ∈ a, x.toNat < 2 ^ w) (hb : ∀ x ∈ b, x.toNat < 2 ^ w)
    (h : ∀ position < a.length * w, bitAt w a position = bitAt w b position) : a = b := by
  apply List.ext_getElem hlength
  intro i hi hi'
  apply digit_ext (ha _ (List.getElem_mem hi)) (hb _ (List.getElem_mem hi'))
  intro j hj
  have hposition : i * w + j < a.length * w := by
    have hmul : (i + 1) * w ≤ a.length * w := Nat.mul_le_mul_right w hi
    rw [Nat.succ_mul] at hmul
    omega
  have hbit := h _ hposition
  rwa [bitAt_digit _ hj, bitAt_digit _ hj, List.getD_eq_getElem _ _ hi,
    List.getD_eq_getElem _ _ hi'] at hbit

/-! ### Octets -/

/-- A bit as an octet. -/
def octetOf (b : Bool) : UInt8 := if b then 1 else 0

/-- The digit of a list of bits. -/
def digitOf (bits : List Bool) : UInt8 :=
  bits.foldl (fun value bit => value <<< 1 ||| octetOf bit) 0

set_option maxRecDepth 2048 in
/-- Shifting an octet to the right and masking reads one bit. -/
theorem shiftRight_and_one {octet : UInt8} {j : ℕ} (h : j < 8) :
    (octet >>> UInt8.ofNat j) &&& 1 = octetOf (octet.toNat.testBit j) := by
  revert octet j
  decide

/-- Setting a bit changes no other. -/
theorem testBit_or_shiftLeft (octet : UInt8) (b : Bool) {j k : ℕ} (hj : j < 8) (hk : k < 8) :
    (octet ||| octetOf b <<< UInt8.ofNat j).toNat.testBit k =
      (octet.toNat.testBit k || (k == j && b)) := by
  have hset : ∀ j < 8, ∀ k < 8, ∀ b,
      (octetOf b <<< UInt8.ofNat j).toNat.testBit k = (k == j && b) := by
    decide
  rw [UInt8.toNat_or, Nat.testBit_or, hset j hj k hk b]

/-- Set a bit of an octet string. -/
def setBit {n : ℕ} (octets : Codec.Octets n) (position : ℕ) (set : UInt8) : Codec.Octets n :=
  ⟨octets.val.modify (position / 8) fun octet => octet ||| set <<< UInt8.ofNat (7 - position % 8),
    by simp⟩

theorem bitAt_setBit {n : ℕ} (octets : Codec.Octets n) {position : ℕ} (h : position < n * 8)
    (b : Bool) (other : ℕ) : bitAt 8 (setBit octets position (octetOf b)).val other =
      (bitAt 8 octets.val other || (other == position && b)) := by
  have hindex : position / 8 < octets.val.length := by
    rw [Codec.Octets.length_val]
    omega
  unfold bitAt setBit
  rw [List.getD_eq_getElem?_getD, List.getD_eq_getElem?_getD, List.getElem?_modify]
  by_cases hsame : position / 8 = other / 8
  · rw [← hsame, List.getElem?_eq_getElem hindex]
    have hbit := testBit_or_shiftLeft octets.val[position / 8] b
      (show 7 - position % 8 < 8 by omega) (show 8 - 1 - other % 8 < 8 by omega)
    have hplace : (8 - 1 - other % 8 == 7 - position % 8) = (other == position) := by
      rw [Bool.eq_iff_iff, beq_iff_eq, beq_iff_eq]
      omega
    simpa [hplace] using hbit
  · have hother : (other == position) = false := by
      rw [beq_eq_false_iff_ne]
      rintro rfl
      exact hsame rfl
    simp [hsame, hother]

end BitPacking
