import CbclPairing.Codec.CborLaws

/-! Library functions the program calls: hashes, key derivation, authenticated
encryption, X25519 and origin parsing. Only the laws the program relies on are
kept with them. -/
namespace CbclPairing
open Codec

abbrev Bytes := List UInt8

/-- Third-party functions. Authenticated encryption opens what it sealed under
the same key, nonce and additional data, and its tag adds sixteen octets. -/
class Primitives where
  sha256 : Bytes → Octets 32
  sha512 : Bytes → Octets 64
  hmacSha512 : Bytes → Bytes → Octets 64
  hkdfSha512 (salt secret info : Bytes) (length : ℕ) : Octets length
  aesGcmEncrypt (key : Octets 32) (nonce : Octets 12) (aad msg : Bytes) : Bytes
  aesGcmDecrypt (key : Octets 32) (nonce : Octets 12) (aad ciphertext : Bytes) : Option Bytes
  x25519 (scalar point : Octets 32) : Octets 32
  /-- The text parses as an `https` URL without user information, query or
  fragment, at the root path, and is the ASCII serialisation of its origin. -/
  isHttpsOrigin : Bytes → Bool
  decrypt_encrypt : ∀ key nonce aad msg,
    aesGcmDecrypt key nonce aad (aesGcmEncrypt key nonce aad msg) = some msg
  encrypt_length : ∀ key nonce aad msg,
    (aesGcmEncrypt key nonce aad msg).length = msg.length + 16

export Primitives (sha256 sha512 hmacSha512 hkdfSha512 aesGcmEncrypt aesGcmDecrypt x25519
  isHttpsOrigin)

/-- The first octets of a text, filled up with zeros. -/
def fill (n : ℕ) (bytes : Bytes) : Octets n :=
  ⟨(bytes ++ List.replicate n 0).take n, by simp⟩

theorem length_added (x y : Octets 32) :
    (List.zipWith (· + ·) x.val y.val).length = 32 := by
  simp

/-- Functions that keep the laws and can be evaluated: hashes keep the head of their
input, the cipher appends an empty tag, and multiplying points adds their octets. -/
@[reducible] def Primitives.transparent : Primitives where
  sha256 input := fill 32 input
  sha512 input := fill 64 input
  hmacSha512 key input := fill 64 (key ++ input)
  hkdfSha512 _ secret info length := fill length (info ++ secret)
  aesGcmEncrypt _ _ _ msg := msg ++ List.replicate 16 0
  aesGcmDecrypt _ _ _ ciphertext := some (ciphertext.take (ciphertext.length - 16))
  x25519 scalar point := ⟨List.zipWith (· + ·) scalar.val point.val, length_added scalar point⟩
  isHttpsOrigin _ := true
  decrypt_encrypt := by simp
  encrypt_length := by simp

/-! ### Checked machine arithmetic -/

/-- `u8::checked_add(1)`. -/
def checkedSucc (n : UInt8) : Option UInt8 := if n = 255 then none else some (n + 1)

/-- `u8::checked_sub(1)`. -/
def checkedPred (n : UInt8) : Option UInt8 := if n = 0 then none else some (n - 1)

/-- `u64::checked_add(1)`. -/
def checkedSucc64 (n : UInt64) : Option UInt64 :=
  if n = 0xffffffffffffffff then none else some (n + 1)

/-- `u64::saturating_add(1)`. -/
def saturatingSucc (n : UInt64) : UInt64 := if n = 0xffffffffffffffff then n else n + 1

theorem checkedSucc_eq_some {n m : UInt8} :
    checkedSucc n = some m ↔ m.toNat = n.toNat + 1 := by
  have hm := m.toNat_lt
  have hn := n.toNat_lt
  unfold checkedSucc
  split_ifs with h
  · simp only [false_iff]
    subst h
    simp only [UInt8.reduceToNat]
    omega
  · have hne : n.toNat ≠ 255 := fun h' => h (UInt8.toNat_inj.mp h')
    rw [Option.some.injEq, ← UInt8.toNat_inj, UInt8.toNat_add]
    simp only [UInt8.reduceToNat]
    omega

theorem checkedPred_eq_some {n m : UInt8} :
    checkedPred n = some m ↔ n.toNat = m.toNat + 1 := by
  have hm := m.toNat_lt
  have hn := n.toNat_lt
  unfold checkedPred
  split_ifs with h
  · subst h
    simp
  · have hne : n.toNat ≠ 0 := fun h' => h (UInt8.toNat_inj.mp h')
    have hle : (1 : UInt8) ≤ n := by
      rw [UInt8.le_iff_toNat_le]
      simp only [UInt8.reduceToNat]
      omega
    rw [Option.some.injEq, ← UInt8.toNat_inj, UInt8.toNat_sub_of_le _ _ hle]
    simp only [UInt8.reduceToNat]
    omega

theorem checkedSucc64_eq_some {n m : UInt64} :
    checkedSucc64 n = some m ↔ m.toNat = n.toNat + 1 := by
  have hm := m.toNat_lt
  have hn := n.toNat_lt
  unfold checkedSucc64
  split_ifs with h
  · simp only [false_iff]
    subst h
    simp only [UInt64.reduceToNat]
    omega
  · have hne : n.toNat ≠ 18446744073709551615 := fun h' => h (UInt64.toNat_inj.mp h')
    rw [Option.some.injEq, ← UInt64.toNat_inj, UInt64.toNat_add]
    simp only [UInt64.reduceToNat]
    omega

theorem saturatingSucc_toNat {n : UInt64} (h : n.toNat < 2 ^ 64 - 1) :
    (saturatingSucc n).toNat = n.toNat + 1 := by
  have hne : n ≠ 0xffffffffffffffff := by
    rintro rfl
    simp at h
  rw [saturatingSucc, if_neg hne, UInt64.toNat_add]
  simp only [UInt64.reduceToNat]
  omega

theorem saturatingSucc_ne_zero (n : UInt64) : saturatingSucc n ≠ 0 := by
  unfold saturatingSucc
  split_ifs with h
  · subst h
    decide
  · intro h0
    have hn := n.toNat_lt
    have hne : n.toNat ≠ 18446744073709551615 := fun h' => h (UInt64.toNat_inj.mp h')
    have := congrArg UInt64.toNat h0
    rw [UInt64.toNat_add] at this
    simp only [UInt64.reduceToNat] at this
    omega

end CbclPairing
