import CbclPairing.Codec.Octets
import Mathlib.Data.List.Lex
import Mathlib.Data.List.Sort
import Mathlib.Data.Nat.Order.Lemmas

/-! Deterministic CBOR: data items, the core deterministic encoding with map
keys in bytewise order, and a recogniser that admits exactly that encoding. -/
namespace Codec
namespace Cbor

/-- A CBOR data item. A text string is kept as its UTF-8 octets and a float as
the bits of its double-precision value. -/
inductive Value where
  | integer (n : ℤ)
  | bytes (b : List UInt8)
  | text (s : List UInt8)
  | array (items : List Value)
  | map (entries : List (Value × Value))
  | tag (t : ℕ) (item : Value)
  | bool (b : Bool)
  | null
  | float (bits : ℕ)

namespace Value

@[elab_as_elim] theorem induction {P : Value → Prop}
    (integer : ∀ n, P (.integer n)) (bytes : ∀ b, P (.bytes b)) (text : ∀ s, P (.text s))
    (array : ∀ items, (∀ x ∈ items, P x) → P (.array items))
    (map : ∀ entries, (∀ e ∈ entries, P e.1 ∧ P e.2) → P (.map entries))
    (tag : ∀ t item, P item → P (.tag t item)) (bool : ∀ b, P (.bool b)) (null : P .null)
    (float : ∀ bits, P (.float bits)) (v : Value) : P v := by
  refine @Value.rec P (fun items => ∀ x ∈ items, P x) (fun entries => ∀ e ∈ entries, P e.1 ∧ P e.2)
    (fun e => P e.1 ∧ P e.2) integer bytes text array map tag bool null float ?_ ?_ ?_ ?_ ?_ v
  · simp
  · intro x xs hx hxs y hy
    rcases List.mem_cons.mp hy with rfl | hy
    · exact hx
    · exact hxs y hy
  · simp
  · intro x xs hx hxs y hy
    rcases List.mem_cons.mp hy with rfl | hy
    · exact hx
    · exact hxs y hy
  · intro a b ha hb
    exact ⟨ha, hb⟩

/-- Equality of the scalar keys a closed grammar looks up. -/
def sameKey : Value → Value → Bool
  | .integer a, .integer b => a == b
  | .text a, .text b => a == b
  | _, _ => false

def asBytes : Value → Option (List UInt8)
  | .bytes b => some b
  | _ => none

def asText : Value → Option (List UInt8)
  | .text s => some s
  | _ => none

def asArray : Value → Option (List Value)
  | .array items => some items
  | _ => none

def asMap : Value → Option (List (Value × Value))
  | .map entries => some entries
  | _ => none

/-- The unsigned reading of an integer item, when it fits 64 bits. -/
def asUint : Value → Option ℕ
  | .integer n => if 0 ≤ n ∧ n < 2 ^ 64 then some n.toNat else none
  | _ => none

end Value

/-- The first entry under a scalar key. -/
def lookup (key : Value) (entries : List (Value × Value)) : Option Value :=
  (entries.find? fun e => e.1.sameKey key).map Prod.snd

/-! ### Encoding -/

/-- Initial octet and argument of a data item, in the shortest form. -/
def head (major n : ℕ) : List UInt8 :=
  if n < 24 then [UInt8.ofNat (major * 32 + n)]
  else if n < 256 then UInt8.ofNat (major * 32 + 24) :: beBytes 1 n
  else if n < 65536 then UInt8.ofNat (major * 32 + 25) :: beBytes 2 n
  else if n < 4294967296 then UInt8.ofNat (major * 32 + 26) :: beBytes 4 n
  else UInt8.ofNat (major * 32 + 27) :: beBytes 8 n

def headSize (n : ℕ) : ℕ :=
  if n < 24 then 1 else if n < 256 then 2 else if n < 65536 then 3
  else if n < 4294967296 then 5 else 9

/-- Exact widening of a binary float with `e` exponent and `m` mantissa bits to
double precision. -/
def widen (e m bits : ℕ) : ℕ :=
  let sign := bits / 2 ^ (e + m) % 2
  let exponent := bits / 2 ^ m % 2 ^ e
  let mantissa := bits % 2 ^ m
  let bias := 2 ^ (e - 1) - 1
  if exponent = 2 ^ e - 1 then sign * 2 ^ 63 + 2047 * 2 ^ 52 + mantissa * 2 ^ (52 - m)
  else if exponent = 0 then
    if mantissa = 0 then sign * 2 ^ 63
    else
      let top := Nat.log2 mantissa
      sign * 2 ^ 63 + (1023 + top + 1 - bias - m) * 2 ^ 52 +
        (mantissa - 2 ^ top) * 2 ^ (52 - top)
  else sign * 2 ^ 63 + (exponent + 1023 - bias) * 2 ^ 52 + mantissa * 2 ^ (52 - m)

/-- The narrow float that widens to `bits`, when there is one. -/
def narrow (e m bits : ℕ) : Option ℕ :=
  let sign := bits / 2 ^ 63
  let exponent := bits / 2 ^ 52 % 2048
  let mantissa := bits % 2 ^ 52
  let bias := 2 ^ (e - 1) - 1
  let candidate :=
    if exponent = 2047 then (sign * 2 ^ e + (2 ^ e - 1)) * 2 ^ m + mantissa / 2 ^ (52 - m)
    else if 1023 < exponent + bias then
      (sign * 2 ^ e + (exponent + bias - 1023)) * 2 ^ m + mantissa / 2 ^ (52 - m)
    else sign * 2 ^ (e + m) + (2 ^ 52 + mantissa) / 2 ^ (52 - m + 1024 - bias - exponent)
  if widen e m candidate = bits then some candidate else none

def encodeFloat (bits : ℕ) : List UInt8 :=
  match narrow 5 10 bits with
  | some half => 0xf9 :: beBytes 2 half
  | none =>
    match narrow 8 23 bits with
    | some single => 0xfa :: beBytes 4 single
    | none => 0xfb :: beBytes 8 bits

mutual

def encode : Value → List UInt8
  | .integer n => if 0 ≤ n then head 0 n.toNat else head 1 (-1 - n).toNat
  | .bytes b => head 2 b.length ++ b
  | .text s => head 3 s.length ++ s
  | .array items => head 4 items.length ++ encodeItems items
  | .map entries => head 5 entries.length ++ encodeEntries entries
  | .tag t item => head 6 t ++ encode item
  | .bool b => [if b then 0xf5 else 0xf4]
  | .null => [0xf6]
  | .float bits => encodeFloat bits
  termination_by structural v => v

def encodeItems : List Value → List UInt8
  | [] => []
  | x :: xs => encode x ++ encodeItems xs
  termination_by structural xs => xs

def encodeEntries : List (Value × Value) → List UInt8
  | [] => []
  | e :: es => encodeEntry e ++ encodeEntries es
  termination_by structural es => es

def encodeEntry : Value × Value → List UInt8
  | (k, v) => encode k ++ encode v
  termination_by structural e => e

end

/-- Bytewise order of the encoded keys. -/
def keyLe (a b : Value × Value) : Prop :=
  (encode a.1).map UInt8.toNat ≤ (encode b.1).map UInt8.toNat

instance : DecidableRel keyLe := fun a b =>
  inferInstanceAs (Decidable ((encode a.1).map UInt8.toNat ≤ (encode b.1).map UInt8.toNat))

def sortEntries (entries : List (Value × Value)) : List (Value × Value) :=
  entries.insertionSort keyLe

mutual

/-- Every map below gets its entries in key order. -/
def canonical : Value → Value
  | .integer n => .integer n
  | .bytes b => .bytes b
  | .text s => .text s
  | .array items => .array (canonicalItems items)
  | .map entries => .map (sortEntries (canonicalEntries entries))
  | .tag t item => .tag t (canonical item)
  | .bool b => .bool b
  | .null => .null
  | .float bits => .float bits
  termination_by structural v => v

def canonicalItems : List Value → List Value
  | [] => []
  | x :: xs => canonical x :: canonicalItems xs
  termination_by structural xs => xs

def canonicalEntries : List (Value × Value) → List (Value × Value)
  | [] => []
  | e :: es => canonicalEntry e :: canonicalEntries es
  termination_by structural es => es

def canonicalEntry : Value × Value → Value × Value
  | (k, v) => (canonical k, canonical v)
  termination_by structural e => e

end

/-- The core deterministic encoding. -/
def toCanonicalVec (v : Value) : List UInt8 := encode (canonical v)

mutual

/-- Some map below holds one key twice. -/
def hasDuplicateKey : Value → Bool
  | .array items => duplicateInItems items
  | .map entries =>
    (!decide (entries.map fun e => toCanonicalVec e.1).Nodup) || duplicateInEntries entries
  | .tag _ item => hasDuplicateKey item
  | .integer _ | .bytes _ | .text _ | .bool _ | .null | .float _ => false
  termination_by structural v => v

def duplicateInItems : List Value → Bool
  | [] => false
  | x :: xs => hasDuplicateKey x || duplicateInItems xs
  termination_by structural xs => xs

def duplicateInEntries : List (Value × Value) → Bool
  | [] => false
  | e :: es => duplicateInEntry e || duplicateInEntries es
  termination_by structural es => es

def duplicateInEntry : Value × Value → Bool
  | (k, v) => hasDuplicateKey k || hasDuplicateKey v
  termination_by structural e => e

end

/-! ### Decoding -/

/-- One step of UTF-8 recognition: the continuation octets still owed and the
range the next one must fall in. -/
def utf8Step (state : Option (ℕ × ℕ × ℕ)) (b : UInt8) : Option (ℕ × ℕ × ℕ) :=
  match state with
  | none => none
  | some (0, _, _) =>
    let n := b.toNat
    if n < 0x80 then some (0, 0, 0)
    else if 0xc2 ≤ n ∧ n < 0xe0 then some (1, 0x80, 0xbf)
    else if n = 0xe0 then some (2, 0xa0, 0xbf)
    else if n = 0xed then some (2, 0x80, 0x9f)
    else if 0xe1 ≤ n ∧ n < 0xf0 then some (2, 0x80, 0xbf)
    else if n = 0xf0 then some (3, 0x90, 0xbf)
    else if 0xf1 ≤ n ∧ n < 0xf4 then some (3, 0x80, 0xbf)
    else if n = 0xf4 then some (3, 0x80, 0x8f)
    else none
  | some (k + 1, low, high) =>
    if low ≤ b.toNat ∧ b.toNat ≤ high then some (k, 0x80, 0xbf) else none

def validUtf8 (s : List UInt8) : Bool :=
  match s.foldl utf8Step (some (0, 0, 0)) with
  | some (0, _, _) => true
  | _ => false

theorem validUtf8_nil : validUtf8 [] = true := rfl

def argument (ai : ℕ) : Cursor Unit ℕ :=
  if ai < 24 then pure ai
  else if ai = 24 then Cursor.uint () 1
  else if ai = 25 then Cursor.uint () 2
  else if ai = 26 then Cursor.uint () 4
  else if ai = 27 then Cursor.uint () 8
  else Cursor.fail ()

/-- Big-number tags over at most sixteen octets are read as the integer they
denote when it fits 64 bits. -/
def tagged (t : ℕ) (item : Value) : Option Value :=
  match t, item with
  | 2, .bytes b =>
    let b := b.dropWhile (· == 0)
    if 16 < b.length then none
    else if b.length ≤ 8 then some (.integer (ofBe b)) else some (.tag 2 (.bytes b))
  | 3, .bytes b =>
    let b := b.dropWhile (· == 0)
    if 16 < b.length then none
    else if b.length ≤ 8 then some (.integer (-1 - ofBe b)) else some (.tag 3 (.bytes b))
  | t, item => some (.tag t item)

/-- The items of major type 7. Indefinite lengths have no reading here. -/
def simple (ai : ℕ) : Cursor Unit Value :=
  match ai with
  | 20 => pure (.bool false)
  | 21 => pure (.bool true)
  | 22 => pure .null
  | 23 => pure .null
  | 25 => (fun bits => .float (widen 5 10 bits)) <$> Cursor.uint () 2
  | 26 => (fun bits => .float (widen 8 23 bits)) <$> Cursor.uint () 4
  | 27 => .float <$> Cursor.uint () 8
  | _ => Cursor.fail ()

def payload (item : Cursor Unit Value) (major n : ℕ) : Cursor Unit Value :=
  match major with
  | 0 => pure (.integer n)
  | 1 => pure (.integer (-1 - n))
  | 2 => .bytes <$> Cursor.take () n
  | 3 => do
    let s ← Cursor.take () n
    if validUtf8 s then pure (.text s) else Cursor.fail ()
  | 4 => .array <$> Cursor.times item n
  | 5 => .map <$> Cursor.times (do
      let k ← item
      let v ← item
      pure (k, v)) n
  | _ => do
    let v ← item
    match tagged n v with
    | some value => pure value
    | none => Cursor.fail ()

/-- Read one item nested at most `depth` levels. -/
def decodeItem : ℕ → Cursor Unit Value
  | 0 => Cursor.fail ()
  | depth + 1 => do
    let b ← Cursor.byte ()
    if b.toNat / 32 = 7 then simple (b.toNat % 32)
    else do
      let n ← argument (b.toNat % 32)
      payload (decodeItem depth) (b.toNat / 32) n

/-- Containers may nest 256 deep around a scalar. -/
def maxDepth : ℕ := 257

inductive DecodeError where
  | malformed
  | trailingBytes
  | duplicateKey
  | nonDeterministic
  deriving DecidableEq, Repr

/-- Recognise one complete item in its deterministic encoding. -/
def decodeCanonical (input : List UInt8) : Except DecodeError Value :=
  match decodeItem maxDepth input with
  | .error _ => .error .malformed
  | .ok (value, rest) =>
    if rest ≠ [] then .error .trailingBytes
    else if hasDuplicateKey value then .error .duplicateKey
    else if toCanonicalVec value ≠ input then .error .nonDeterministic
    else .ok value

end Cbor
end Codec
