import Mathlib.Data.List.Prime
import Mathlib.NumberTheory.LucasPrimality

/-! Powers by their exponent: primality from the orders of a residue, and exponents read
bit by bit. -/
namespace Powers

/-- A number whose predecessor is a product of primes is prime if a residue has the whole
predecessor as its order. -/
theorem prime_of_factors {p : ℕ} (a : ZMod p) (factors : List ℕ)
    (hprime : ∀ q ∈ factors, q.Prime) (hprod : factors.prod + 1 = p)
    (hone : a ^ factors.prod = 1) (hne : ∀ q ∈ factors, a ^ (factors.prod / q) ≠ 1) :
    p.Prime := by
  have hpred : p - 1 = factors.prod := by omega
  apply lucas_primality p a
  · rw [hpred]
    exact hone
  · intro q hq hdvd
    rw [hpred] at hdvd ⊢
    obtain ⟨factor, hmem, hfactor⟩ := (Prime.dvd_prod_iff hq.prime).mp hdvd
    rw [(Nat.prime_dvd_prime_iff_eq hq (hprime factor hmem)).mp hfactor]
    exact hne factor hmem

/-! ### Square and multiply -/

/-- The number that bits continue, most significant first. -/
def appendBits (n : ℕ) (bits : List Bool) : ℕ := bits.foldl (fun n bit => 2 * n + bit.toNat) n

/-- A loop that squares for every bit, and multiplies for those that are set, holds a power
after it, in whatever way its values stand for those of the monoid. -/
theorem squareMultiply {α M : Type} [Monoid M] {R : α → M → Prop} {mul : α → α → α}
    {square : α → α} {a : α} {x : M} (hsquare : ∀ r y, R r y → R (square r) (y * y))
    (hmul : ∀ r y, R r y → R (mul r a) (y * x)) {r : α} {n : ℕ} (hr : R r (x ^ n))
    (bits : List Bool) :
    R (bits.foldl (fun r bit => if bit then mul (square r) a else square r) r)
      (x ^ appendBits n bits) := by
  induction bits generalizing r n with
  | nil => exact hr
  | cons bit bits ih =>
    rw [List.foldl_cons, appendBits, List.foldl_cons]
    apply ih
    have hdouble := hsquare r (x ^ n) hr
    rw [← pow_add, ← two_mul] at hdouble
    cases bit with
    | false => exact hdouble
    | true =>
      have hnext := hmul _ _ hdouble
      rwa [← pow_succ] at hnext

end Powers
