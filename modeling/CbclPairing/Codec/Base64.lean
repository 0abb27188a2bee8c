import CbclPairing.Codec.Octets

/-! Unpadded base64 in the URL alphabet. -/
namespace Codec

def base64UrlAlphabet : List UInt8 :=
  ascii "ABCDEFGHIJKLMNOPQRSTUVWXYZabcdefghijklmnopqrstuvwxyz0123456789-_"

/-- The symbol of a six-bit group. -/
def base64UrlSymbol (n : ℕ) : UInt8 := base64UrlAlphabet.getD n 0

def base64Url : List UInt8 → List UInt8
  | a :: b :: c :: rest =>
    let n := a.toNat * 65536 + b.toNat * 256 + c.toNat
    base64UrlSymbol (n / 262144) :: base64UrlSymbol (n / 4096 % 64) ::
      base64UrlSymbol (n / 64 % 64) :: base64UrlSymbol (n % 64) :: base64Url rest
  | [a, b] =>
    let n := a.toNat * 256 + b.toNat
    [base64UrlSymbol (n / 1024), base64UrlSymbol (n / 16 % 64), base64UrlSymbol (n % 16 * 4)]
  | [a] => [base64UrlSymbol (a.toNat / 4), base64UrlSymbol (a.toNat % 4 * 16)]
  | [] => []

theorem base64Url_length (bytes : List UInt8) :
    (base64Url bytes).length = (4 * bytes.length + 2) / 3 := by
  induction bytes using base64Url.induct with
  | case1 a b c rest ih =>
    simp only [base64Url, List.length_cons, ih]
    omega
  | case2 a b => simp [base64Url]
  | case3 a => simp [base64Url]
  | case4 => simp [base64Url]

/-- Encoding into a buffer of fixed size. -/
def base64UrlInto (size : ℕ) (bytes : List UInt8) : Option (List UInt8) :=
  if size < (base64Url bytes).length then none else some (base64Url bytes)

theorem base64UrlInto_eq_some {size : ℕ} {bytes : List UInt8}
    (h : (4 * bytes.length + 2) / 3 ≤ size) :
    base64UrlInto size bytes = some (base64Url bytes) := by
  rw [← base64Url_length] at h
  exact if_neg (not_lt.mpr h)

example : base64Url (ascii "light wo") = ascii "bGlnaHQgd28" := by decide

/-! ### Decoding -/

/-- The group a symbol stands for. -/
def base64UrlValue? (b : UInt8) : Option ℕ := base64UrlAlphabet.findIdx? (· == b)

/-- Bits behind the last octet have to be zero. -/
def base64UrlDecode : List UInt8 → Option (List UInt8)
  | a :: b :: c :: d :: rest => do
    let a ← base64UrlValue? a
    let b ← base64UrlValue? b
    let c ← base64UrlValue? c
    let d ← base64UrlValue? d
    let tail ← base64UrlDecode rest
    let n := a * 262144 + b * 4096 + c * 64 + d
    some (UInt8.ofNat (n / 65536) :: UInt8.ofNat (n / 256) :: UInt8.ofNat n :: tail)
  | [a, b, c] => do
    let a ← base64UrlValue? a
    let b ← base64UrlValue? b
    let c ← base64UrlValue? c
    let n := a * 4096 + b * 64 + c
    if n % 4 = 0 then some [UInt8.ofNat (n / 1024), UInt8.ofNat (n / 4)] else none
  | [a, b] => do
    let a ← base64UrlValue? a
    let b ← base64UrlValue? b
    let n := a * 64 + b
    if n % 16 = 0 then some [UInt8.ofNat (n / 16)] else none
  | [_] => none
  | [] => some []

/-- Decoding into a buffer of fixed size. -/
def base64UrlDecodeInto (size : ℕ) (text : List UInt8) : Option (List UInt8) :=
  (base64UrlDecode text).filter fun bytes => bytes.length ≤ size

theorem base64UrlValue?_symbol {n : ℕ} (h : n < 64) :
    base64UrlValue? (base64UrlSymbol n) = some n := by
  revert n
  decide

theorem octet_of_toNat {n : ℕ} {b : UInt8} (h : n % 256 = b.toNat) : UInt8.ofNat n = b := by
  apply UInt8.toNat_inj.mp
  rw [UInt8.toNat_ofNat', h]

theorem base64UrlDecode_base64Url (bytes : List UInt8) :
    base64UrlDecode (base64Url bytes) = some bytes := by
  induction bytes using base64Url.induct with
  | case1 a b c rest ih =>
    have ha := a.toNat_lt
    have hb := b.toNat_lt
    have hc := c.toNat_lt
    simp only [base64Url, base64UrlDecode]
    rw [base64UrlValue?_symbol (by omega), base64UrlValue?_symbol (by omega),
      base64UrlValue?_symbol (by omega), base64UrlValue?_symbol (by omega), ih]
    simp only [Option.bind_eq_bind, Option.bind_some]
    rw [octet_of_toNat (b := a) (by omega), octet_of_toNat (b := b) (by omega),
      octet_of_toNat (b := c) (by omega)]
  | case2 a b =>
    have ha := a.toNat_lt
    have hb := b.toNat_lt
    simp only [base64Url, base64UrlDecode]
    rw [base64UrlValue?_symbol (by omega), base64UrlValue?_symbol (by omega),
      base64UrlValue?_symbol (by omega)]
    simp only [Option.bind_eq_bind, Option.bind_some]
    rw [if_pos (by omega), octet_of_toNat (b := a) (by omega), octet_of_toNat (b := b) (by omega)]
  | case3 a =>
    have ha := a.toNat_lt
    simp only [base64Url, base64UrlDecode]
    rw [base64UrlValue?_symbol (by omega), base64UrlValue?_symbol (by omega)]
    simp only [Option.bind_eq_bind, Option.bind_some]
    rw [if_pos (by omega), octet_of_toNat (b := a) (by omega)]
  | case4 => rfl

/-- What the program relies on of a decoder of unpadded text: it inverts the encoder where
the buffer is large enough. -/
structure UnpaddedDecoder (decode : ℕ → List UInt8 → Option (List UInt8)) : Prop where
  decode_encode : ∀ size bytes, bytes.length ≤ size → decode size (base64Url bytes) = some bytes

theorem unpaddedDecoder_base64Url : UnpaddedDecoder base64UrlDecodeInto where
  decode_encode size bytes h := by
    rw [base64UrlDecodeInto, base64UrlDecode_base64Url]
    simp [Option.filter, h]

end Codec
