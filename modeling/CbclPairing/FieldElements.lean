import CbclPairing.Cpace
import CbclPairing.Powers
import Mathlib.Data.ZMod.Basic

/-! The field of Curve25519 as the generator map computes in it: five limbs of 51 bits under
operations that are generated elsewhere and known by what they say of bounded limbs. -/
namespace CbclPairing
namespace Cpace
open Codec

/-! ### Limbs -/

/-- The number five limbs stand for, least significant first. -/
def evalLimbs (limbs : Vector UInt64 5) : ℕ :=
  limbs[0].toNat + 2 ^ 51 * limbs[1].toNat + 2 ^ 102 * limbs[2].toNat +
    2 ^ 153 * limbs[3].toNat + 2 ^ 204 * limbs[4].toNat

/-- `fiat_25519_tight_field_element` -/
structure Tight where
  limbs : Vector UInt64 5
  deriving DecidableEq

/-- `fiat_25519_loose_field_element` -/
structure Loose where
  limbs : Vector UInt64 5
  deriving DecidableEq

/-- Limbs within the bound of carried ones, and the residue they stand for. -/
def Tight.Represents (a : Tight) (x : ZMod fieldPrime) : Prop :=
  (∀ limb ∈ a.limbs.toList, limb.toNat ≤ 2 ^ 51) ∧ (evalLimbs a.limbs : ZMod fieldPrime) = x

/-- Limbs within the bound of sums that were not carried. -/
def Loose.Represents (a : Loose) (x : ZMod fieldPrime) : Prop :=
  (∀ limb ∈ a.limbs.toList, limb.toNat ≤ 3 * 2 ^ 51) ∧ (evalLimbs a.limbs : ZMod fieldPrime) = x

/-- The generated operations. -/
class Fiat25519 where
  add : Tight → Tight → Loose
  sub : Tight → Tight → Loose
  opp : Tight → Loose
  carry : Loose → Tight
  relax : Tight → Loose
  carryMul : Loose → Loose → Tight
  carrySquare : Loose → Tight
  fromBytes : Octets 32 → Tight
  toBytes : Tight → Octets 32

open Fiat25519 in
/-- What the generated operations promise of limbs within their bounds. -/
structure Fiat25519.Lawful [Fiat25519] : Prop where
  add : ∀ {a b : Tight} {x y}, a.Represents x → b.Represents y → (add a b).Represents (x + y)
  sub : ∀ {a b : Tight} {x y}, a.Represents x → b.Represents y → (sub a b).Represents (x - y)
  opp : ∀ {a : Tight} {x}, a.Represents x → (opp a).Represents (-x)
  carry : ∀ {a : Loose} {x}, a.Represents x → (carry a).Represents x
  relax : ∀ {a : Tight} {x}, a.Represents x → (relax a).Represents x
  carryMul : ∀ {a b : Loose} {x y}, a.Represents x → b.Represents y →
    (carryMul a b).Represents (x * y)
  carrySquare : ∀ {a : Loose} {x}, a.Represents x → (carrySquare a).Represents (x * x)
  fromBytes : ∀ bytes : Octets 32, ofLe bytes.val < 2 ^ 255 →
    (fromBytes bytes).Represents (ofLe bytes.val)
  toBytes : ∀ {a : Tight} {x}, a.Represents x → toBytes a = toLe 32 x.val

/-! ### Field elements -/

/-- `FieldElement(Tight)` -/
abbrev FieldElement := Tight

namespace FieldElement

def one : FieldElement := ⟨#v[1, 0, 0, 0, 0]⟩
def curveA : FieldElement := ⟨#v[486662, 0, 0, 0, 0]⟩
def curveAOverTwo : FieldElement := ⟨#v[243331, 0, 0, 0, 0]⟩

variable [Fiat25519]

def fromBytes (bytes : Octets 32) : FieldElement := Fiat25519.fromBytes bytes
def toBytes (a : FieldElement) : Octets 32 := Fiat25519.toBytes a
def add (a b : FieldElement) : FieldElement := Fiat25519.carry (Fiat25519.add a b)
def sub (a b : FieldElement) : FieldElement := Fiat25519.carry (Fiat25519.sub a b)
def neg (a : FieldElement) : FieldElement := Fiat25519.carry (Fiat25519.opp a)

def mul (a b : FieldElement) : FieldElement :=
  Fiat25519.carryMul (Fiat25519.relax a) (Fiat25519.relax b)

def square (a : FieldElement) : FieldElement := Fiat25519.carrySquare (Fiat25519.relax a)

def pow (a : FieldElement) (exponent : Bytes) : FieldElement :=
  (exponentBits exponent).foldl (fun r bit => if bit then mul (square r) a else square r) one

def invert (a : FieldElement) : FieldElement := pow a primeMinusTwo

/-- `elligator2_curve25519` -/
def elligator2Curve25519 (representative : Octets 32) : Octets 32 :=
  let r := fromBytes (clearTopBit representative)
  let denominator := add one (mul (add one one) (square r))
  let v := mul (neg curveA) (invert denominator)
  let curveEquation := mul v (add (add (square v) (mul curveA v)) one)
  let epsilon := pow curveEquation primeMinusOneOverTwo
  toBytes (sub (mul epsilon v) (mul (sub one epsilon) curveAOverTwo))

end FieldElement

/-! ### Exponents -/

theorem appendBits_byte (n : ℕ) (b : UInt8) :
    Powers.appendBits n ((List.range 8).reverse.map fun i => b.toNat.testBit i) =
      n * 256 + b.toNat := by
  have hb := b.toNat_lt
  have hbits : (List.range 8).reverse = [7, 6, 5, 4, 3, 2, 1, 0] := rfl
  simp only [Powers.appendBits, hbits, List.map_cons, List.map_nil, List.foldl_cons,
    List.foldl_nil, Nat.toNat_testBit]
  omega

theorem appendBits_exponentBits (exponent : Bytes) :
    Powers.appendBits 0 (exponentBits exponent) = ofLe exponent := by
  have hbytes : ∀ (bytes : Bytes) (n : ℕ),
      Powers.appendBits n (bytes.flatMap fun b => (List.range 8).reverse.map fun i =>
        b.toNat.testBit i) = ofBeAcc n bytes := by
    intro bytes
    induction bytes with
    | nil => exact fun n => rfl
    | cons b bytes ih =>
      intro n
      have hbyte := appendBits_byte n b
      simp only [Powers.appendBits] at hbyte ih ⊢
      rw [List.flatMap_cons, List.foldl_append, hbyte, ih]
      rfl
  exact hbytes exponent.reverse 0

/-! ### What field elements stand for -/

namespace FieldElement

theorem one_represents : one.Represents 1 := by
  constructor
  · simp [one]
  · simp [one, evalLimbs]

theorem curveA_represents : curveA.Represents (Cpace.curveA : ZMod fieldPrime) := by
  constructor
  · simp [curveA]
  · rfl

theorem curveAOverTwo_represents :
    curveAOverTwo.Represents (Cpace.curveAOverTwo : ZMod fieldPrime) := by
  constructor
  · simp [curveAOverTwo]
  · rfl

variable [Fiat25519] {a b : FieldElement} {x y : ZMod fieldPrime}

theorem add_represents (h : Fiat25519.Lawful) (ha : a.Represents x) (hb : b.Represents y) :
    (add a b).Represents (x + y) := h.carry (h.add ha hb)

theorem sub_represents (h : Fiat25519.Lawful) (ha : a.Represents x) (hb : b.Represents y) :
    (sub a b).Represents (x - y) := h.carry (h.sub ha hb)

theorem neg_represents (h : Fiat25519.Lawful) (ha : a.Represents x) :
    (neg a).Represents (-x) := h.carry (h.opp ha)

theorem mul_represents (h : Fiat25519.Lawful) (ha : a.Represents x) (hb : b.Represents y) :
    (mul a b).Represents (x * y) := h.carryMul (h.relax ha) (h.relax hb)

theorem square_represents (h : Fiat25519.Lawful) (ha : a.Represents x) :
    (square a).Represents (x * x) := h.carrySquare (h.relax ha)

/-- The loop holds a power of its base: the one whose exponent the octets denote. -/
theorem pow_represents (h : Fiat25519.Lawful) (ha : a.Represents x) (exponent : Bytes) :
    (pow a exponent).Represents (x ^ ofLe exponent) := by
  rw [← appendBits_exponentBits]
  apply Powers.squareMultiply (R := Tight.Represents)
  · exact fun r z hr => square_represents h hr
  · exact fun r z hr => mul_represents h hr ha
  · rw [pow_zero]
    exact one_represents

end FieldElement

/-! ### The same field without limbs -/

section Residues

@[simp] theorem cast_fieldAdd (a b : ℕ) :
    (fieldAdd a b : ZMod fieldPrime) = (a : ZMod fieldPrime) + b := by
  rw [fieldAdd, ZMod.natCast_mod, Nat.cast_add]

@[simp] theorem cast_fieldMul (a b : ℕ) :
    (fieldMul a b : ZMod fieldPrime) = (a : ZMod fieldPrime) * b := by
  rw [fieldMul, ZMod.natCast_mod, Nat.cast_mul]

@[simp] theorem cast_fieldSquare (a : ℕ) :
    (fieldSquare a : ZMod fieldPrime) = (a : ZMod fieldPrime) * a := cast_fieldMul a a

@[simp] theorem cast_fieldSub (a b : ℕ) :
    (fieldSub a b : ZMod fieldPrime) = (a : ZMod fieldPrime) - b := by
  have hle : b % fieldPrime ≤ fieldPrime := (Nat.mod_lt b (by decide)).le
  rw [fieldSub, ZMod.natCast_mod, Nat.cast_add, Nat.cast_sub hle, ZMod.natCast_self,
    ZMod.natCast_mod]
  ring

@[simp] theorem cast_fieldNeg (a : ℕ) :
    (fieldNeg a : ZMod fieldPrime) = -(a : ZMod fieldPrime) := by
  rw [fieldNeg, cast_fieldSub, Nat.cast_zero, zero_sub]

@[simp] theorem cast_fieldPow (a : ℕ) (exponent : Bytes) :
    (fieldPow a exponent : ZMod fieldPrime) = (a : ZMod fieldPrime) ^ ofLe exponent := by
  rw [← appendBits_exponentBits]
  apply Powers.squareMultiply (R := fun (n : ℕ) (z : ZMod fieldPrime) => (n : ZMod fieldPrime) = z)
  · intro r z hr
    rw [cast_fieldSquare, hr]
  · intro r z hr
    rw [cast_fieldMul, hr]
  · rw [pow_zero, Nat.cast_one]

theorem fieldSub_lt (a b : ℕ) : fieldSub a b < fieldPrime := Nat.mod_lt _ (by decide)

end Residues

/-! ### Operations that reduce every result -/

def encodeLimbs (n : ℕ) : Vector UInt64 5 :=
  #v[UInt64.ofNat (n % 2 ^ 51), UInt64.ofNat (n / 2 ^ 51 % 2 ^ 51),
    UInt64.ofNat (n / 2 ^ 102 % 2 ^ 51), UInt64.ofNat (n / 2 ^ 153 % 2 ^ 51),
    UInt64.ofNat (n / 2 ^ 204 % 2 ^ 51)]

theorem toNat_limb (n : ℕ) : (UInt64.ofNat (n % 2 ^ 51)).toNat = n % 2 ^ 51 := by
  rw [UInt64.toNat_ofNat']
  omega

theorem encodeLimbs_le (n : ℕ) : ∀ limb ∈ (encodeLimbs n).toList, limb.toNat ≤ 2 ^ 51 := by
  have hlimb (m : ℕ) : (UInt64.ofNat (m % 2 ^ 51)).toNat ≤ 2 ^ 51 := by
    rw [toNat_limb]
    omega
  intro limb hmem
  simp only [encodeLimbs, Vector.toList_mk, List.mem_cons, List.not_mem_nil, or_false] at hmem
  rcases hmem with rfl | rfl | rfl | rfl | rfl
  · exact hlimb n
  · exact hlimb _
  · exact hlimb _
  · exact hlimb _
  · exact hlimb _

theorem evalLimbs_encodeLimbs {n : ℕ} (h : n < fieldPrime) : evalLimbs (encodeLimbs n) = n := by
  have hprime : fieldPrime < 2 ^ 255 := by decide
  show (UInt64.ofNat (n % 2 ^ 51)).toNat + 2 ^ 51 * (UInt64.ofNat (n / 2 ^ 51 % 2 ^ 51)).toNat +
    2 ^ 102 * (UInt64.ofNat (n / 2 ^ 102 % 2 ^ 51)).toNat +
    2 ^ 153 * (UInt64.ofNat (n / 2 ^ 153 % 2 ^ 51)).toNat +
    2 ^ 204 * (UInt64.ofNat (n / 2 ^ 204 % 2 ^ 51)).toNat = n
  simp only [toNat_limb]
  omega

theorem tight_encodeLimbs {n : ℕ} (h : n < fieldPrime) :
    (Tight.mk (encodeLimbs n)).Represents n :=
  ⟨encodeLimbs_le n, by rw [evalLimbs_encodeLimbs h]⟩

theorem loose_encodeLimbs {n : ℕ} (h : n < fieldPrime) :
    (Loose.mk (encodeLimbs n)).Represents n := by
  constructor
  · intro limb hmem
    have hle := encodeLimbs_le n limb hmem
    omega
  · rw [evalLimbs_encodeLimbs h]

@[reducible] def Fiat25519.reduced : Fiat25519 where
  add a b := ⟨encodeLimbs (fieldAdd (evalLimbs a.limbs) (evalLimbs b.limbs))⟩
  sub a b := ⟨encodeLimbs (fieldSub (evalLimbs a.limbs) (evalLimbs b.limbs))⟩
  opp a := ⟨encodeLimbs (fieldNeg (evalLimbs a.limbs))⟩
  carry a := ⟨encodeLimbs (evalLimbs a.limbs % fieldPrime)⟩
  relax a := ⟨a.limbs⟩
  carryMul a b := ⟨encodeLimbs (fieldMul (evalLimbs a.limbs) (evalLimbs b.limbs))⟩
  carrySquare a := ⟨encodeLimbs (fieldSquare (evalLimbs a.limbs))⟩
  fromBytes bytes := ⟨encodeLimbs (ofLe bytes.val % fieldPrime)⟩
  toBytes a := toLe 32 (evalLimbs a.limbs % fieldPrime)

theorem Fiat25519.reduced_lawful : @Fiat25519.Lawful Fiat25519.reduced := by
  have hmod (n : ℕ) : n % fieldPrime < fieldPrime := Nat.mod_lt n (by decide)
  apply @Fiat25519.Lawful.mk Fiat25519.reduced
  case add =>
    intro a b x y ha hb
    have h := loose_encodeLimbs (hmod (evalLimbs a.limbs + evalLimbs b.limbs))
    rwa [ZMod.natCast_mod, Nat.cast_add, ha.2, hb.2] at h
  case sub =>
    intro a b x y ha hb
    have h := loose_encodeLimbs (fieldSub_lt (evalLimbs a.limbs) (evalLimbs b.limbs))
    rwa [cast_fieldSub, ha.2, hb.2] at h
  case opp =>
    intro a x ha
    have h := loose_encodeLimbs (fieldSub_lt 0 (evalLimbs a.limbs))
    rwa [cast_fieldSub, Nat.cast_zero, zero_sub, ha.2] at h
  case carry =>
    intro a x ha
    have h := tight_encodeLimbs (hmod (evalLimbs a.limbs))
    rwa [ZMod.natCast_mod, ha.2] at h
  case relax =>
    intro a x ha
    constructor
    · intro limb hmem
      have hle := ha.1 limb hmem
      omega
    · exact ha.2
  case carryMul =>
    intro a b x y ha hb
    have h := tight_encodeLimbs (hmod (evalLimbs a.limbs * evalLimbs b.limbs))
    rwa [ZMod.natCast_mod, Nat.cast_mul, ha.2, hb.2] at h
  case carrySquare =>
    intro a x ha
    have h := tight_encodeLimbs (hmod (evalLimbs a.limbs * evalLimbs a.limbs))
    rwa [ZMod.natCast_mod, Nat.cast_mul, ha.2] at h
  case fromBytes =>
    intro bytes hbytes
    have h := tight_encodeLimbs (hmod (ofLe bytes.val))
    rwa [ZMod.natCast_mod] at h
  case toBytes =>
    intro a x ha
    show toLe 32 (evalLimbs a.limbs % fieldPrime) = toLe 32 x.val
    rw [← ha.2, ZMod.val_natCast]

end Cpace
end CbclPairing
