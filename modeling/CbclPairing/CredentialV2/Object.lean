import CbclPairing.Calls
import CbclPairing.Wire

/-! Credential/v2 errors, the shared field readers, and padded application
objects. -/
namespace CbclPairing
namespace CredentialV2
open Codec Codec.Cbor

/-- Recognition, cryptographic, or state failure. -/
inductive Error where
  | malformedCbor
  | trailingBytes
  | nonDeterministic
  | duplicateKey
  | schema
  | origin
  | cpace
  | keySchedule
  | finished
  | direction
  | counter
  | authentication
  | size
  | terminal
  | profile
  | predecessor
  | phase
  | expired
  deriving DecidableEq, Repr

/-- The relay message a session hands to its shell. -/
def relayMessage (message : ClientMessage) : Except Error ClientMessage :=
  (encodeClientMessage message).mapError fun _ => .schema

@[simp] theorem relayMessage_eq_ok {message m : ClientMessage} :
    relayMessage message = .ok m ↔ message.recognised = true ∧ message = m := by
  unfold relayMessage encodeClientMessage
  split_ifs with h <;> simp [Except.mapError, h]

theorem relayMessage_ok {message : ClientMessage} (h : message.recognised = true) :
    relayMessage message = .ok message :=
  relayMessage_eq_ok.mpr ⟨h, rfl⟩

/-! ### Field readers -/

def decodeCanonical (input : Bytes) : Except Error Value :=
  (Cbor.decodeCanonical input).mapError fun
    | .malformed => .malformedCbor
    | .trailingBytes => .trailingBytes
    | .duplicateKey => .duplicateKey
    | .nonDeterministic => .nonDeterministic

def orSchema {α : Type} : Option α → Except Error α
  | some a => .ok a
  | none => .error .schema

def mapEntries (value : Value) : Except Error (List (Value × Value)) := orSchema value.asMap

def field (entries : List (Value × Value)) (key : Value) : Except Error Value :=
  orSchema (lookup key entries)

def optionalField (entries : List (Value × Value)) (key : String) : Option Value :=
  lookup (.text (ascii key)) entries

def fixedBytes (n : ℕ) (value : Value) : Except Error (Octets n) :=
  orSchema (value.asBytes.bind (Octets.ofList? n))

def uint (value : Value) : Except Error ℕ := orSchema value.asUint

def textField (entries : List (Value × Value)) (key : String) : Except Error Bytes := do
  orSchema (← field entries (.text (ascii key))).asText

def bytesField (n : ℕ) (entries : List (Value × Value)) (key : String) :
    Except Error (Octets n) := do
  fixedBytes n (← field entries (.text (ascii key)))

def uintField (entries : List (Value × Value)) (key : String) : Except Error ℕ := do
  uint (← field entries (.text (ascii key)))

def sideNumber : Side → ℕ
  | .allocator => 0
  | .claimant => 1

def side (value : Value) : Except Error Side := do
  match ← uint value with
  | 0 => .ok .allocator
  | 1 => .ok .claimant
  | _ => .error .schema

@[simp] theorem orSchema_some {α : Type} (a : α) : orSchema (some a) = .ok a := rfl

@[simp] theorem orSchema_none {α : Type} : orSchema (none : Option α) = .error .schema := rfl

@[simp] theorem mapEntries_map (entries : List (Value × Value)) :
    mapEntries (.map entries) = .ok entries := rfl

@[simp] theorem fixedBytes_bytes {n : ℕ} (x : Octets n) :
    fixedBytes n (.bytes x.val) = .ok x := by
  simp [fixedBytes, Value.asBytes]

@[simp] theorem uint_integer {n : ℕ} (h : n < 2 ^ 64) : uint (.integer n) = .ok n := by
  have hz : (n : ℤ) < 2 ^ 64 := by exact_mod_cast h
  rw [uint, Value.asUint, if_pos ⟨by omega, hz⟩]
  rfl

theorem orSchema_eq_ok {α : Type} {x : Option α} {a : α} : orSchema x = .ok a ↔ x = some a := by
  cases x <;> simp [orSchema]

theorem fixedBytes_eq_ok {n : ℕ} {value : Value} {x : Octets n} :
    fixedBytes n value = .ok x ↔ value = .bytes x.val := by
  rw [fixedBytes, orSchema_eq_ok, Option.bind_eq_some_iff]
  cases value with
  | bytes b => simp [Value.asBytes, Octets.ofList?_eq_some]
  | _ => simp [Value.asBytes]

theorem uint_eq_ok {value : Value} {n : ℕ} (h : uint value = .ok n) : value = .integer n :=
  asUint_eq_some (orSchema_eq_ok.mp h)

@[simp] theorem side_integer (s : Side) : side (.integer (sideNumber s)) = .ok s := by
  cases s <;> rfl

theorem decodeCanonical_toCanonicalVec {v : Value} (h : Plain maxDepth v) :
    decodeCanonical (toCanonicalVec v) = .ok (canonical v) := by
  simp [decodeCanonical, Cbor.decodeCanonical_toCanonicalVec h, Except.mapError]

/-- Decoding the encoding of a map leaves its entries, in key order. -/
theorem decodeCanonical_map {entries : List (Value × Value)} (h : Plain maxDepth (.map entries)) :
    decodeCanonical (toCanonicalVec (.map entries)) = .ok (.map (canonicalMap entries)) := by
  rw [decodeCanonical_toCanonicalVec h, canonical_map]

theorem field_canonicalMap {entries : List (Value × Value)} (h : Plain maxDepth (.map entries))
    (key : Value) {value : Value} (hkey : lookup key entries = some value) :
    field (canonicalMap entries) key = .ok (canonical value) := by
  rw [field, lookup_canonicalMap h, hkey]
  rfl

theorem toCanonicalVec_of_decode {input : Bytes} {v : Value}
    (h : decodeCanonical input = .ok v) : toCanonicalVec v = input := by
  unfold decodeCanonical at h
  cases hd : Cbor.decodeCanonical input with
  | error e => simp [hd, Except.mapError] at h
  | ok w =>
    simp only [hd, Except.mapError, Except.ok.injEq] at h
    subst h
    exact toCanonicalVec_of_decodeCanonical hd

/-! ### Objects -/

def controlPaddingBytes : ℕ := 4096
def largePaddingBytes : ℕ := 64512
def maxControlBody : ℕ := 2048
def maxLargeBody : ℕ := 62000

inductive Kind where
  | offer
  | intentApprove
  | intentDecline
  | preparation
  | comparisonConfirmed
  | bindingConfirmed
  | refusal
  | finalApprove
  | finalDecline
  | payload
  | receipt
  | accountSelect
  deriving DecidableEq, Repr

namespace Kind

def all : List Kind :=
  [.offer, .intentApprove, .intentDecline, .preparation, .comparisonConfirmed, .bindingConfirmed,
    .refusal, .finalApprove, .finalDecline, .payload, .receipt, .accountSelect]

def number : Kind → ℕ
  | .offer => 0
  | .intentApprove => 1
  | .intentDecline => 2
  | .preparation => 3
  | .comparisonConfirmed => 4
  | .bindingConfirmed => 5
  | .refusal => 6
  | .finalApprove => 7
  | .finalDecline => 8
  | .payload => 9
  | .receipt => 10
  | .accountSelect => 11

def isLarge : Kind → Bool
  | .offer | .payload | .receipt => true
  | _ => false

def fromNumber (value : ℕ) : Except Error Kind := orSchema all[value]?

@[simp] theorem fromNumber_number (kind : Kind) : fromNumber kind.number = .ok kind := by
  cases kind <;> rfl

theorem number_lt (kind : Kind) : kind.number < 12 := by cases kind <;> decide

end Kind

def capacity (kind : Kind) : ℕ :=
  if kind.isLarge then largePaddingBytes else controlPaddingBytes

def maximumBody (kind : Kind) : ℕ := if kind.isLarge then maxLargeBody else maxControlBody

theorem maximumBody_le_capacity (kind : Kind) : maximumBody kind ≤ capacity kind := by
  cases kind <;> decide

def validateBody (kind : Kind) (length : ℕ) : Except Error Unit :=
  if length = 0 ∨ maximumBody kind < length then .error .size else .ok ()

/-- One padded application object. Its bytes and content hash are functions of
the three fields; a body outside its kind's bounds has no object. -/
structure Object where
  kind : Kind
  intentDigest : Octets 32
  body : Bytes
  body_pos : 0 < body.length
  body_le : body.length ≤ maximumBody kind
  deriving DecidableEq

namespace Object

def new (kind : Kind) (intentDigest : Octets 32) (body : Bytes) : Except Error Object :=
  if h : 0 < body.length ∧ body.length ≤ maximumBody kind then
    .ok ⟨kind, intentDigest, body, h.1, h.2⟩
  else .error .size

def padded (o : Object) : Bytes := o.body ++ List.replicate (capacity o.kind - o.body.length) 0

def entries (o : Object) : List (Value × Value) :=
  [(.integer 0, .integer 2),
    (.integer 1, .integer o.kind.number),
    (.integer 2, .bytes o.intentDigest.val),
    (.integer 3, .integer o.body.length),
    (.integer 4, .bytes o.padded)]

/-- The exact canonical padded object. -/
def bytes (o : Object) : Bytes := toCanonicalVec (.map o.entries)

def contentHash [Primitives] (o : Object) : Octets 32 := sha256 o.bytes

@[simp] theorem padded_length (o : Object) : o.padded.length = capacity o.kind := by
  have h := o.body_le.trans (maximumBody_le_capacity o.kind)
  simp only [padded, List.length_append, List.length_replicate]
  omega

theorem capacity_lt (kind : Kind) : capacity kind < 2 ^ 17 := by cases kind <;> decide

theorem body_length_lt (o : Object) : o.body.length < 2 ^ 17 :=
  (o.body_le.trans (maximumBody_le_capacity o.kind)).trans_lt (capacity_lt o.kind)

theorem plain_entries (o : Object) : Plain maxDepth (.map o.entries) := by
  have hcap := capacity_lt o.kind
  have hlen := o.body_length_lt
  have hnum := o.kind.number_lt
  have hkeys : (o.entries.map fun e => toCanonicalVec e.1) = [[0], [1], [2], [3], [4]] := rfl
  refine ⟨by simp [entries], by rw [hkeys]; decide, ?_⟩
  simp only [entries, List.forall_mem_cons, List.not_mem_nil, false_imp_iff, implies_true, and_true,
    Plain, padded_length, Octets.length_val]
  omega

end Object

def decodeObject (input : Bytes) : Except Error Object := do
  let value ← decodeCanonical input
  let entries ← mapEntries value
  let version ← uint (← field entries (.integer 0))
  if entries.length ≠ 5 ∨ version ≠ 2 then .error .schema
  else do
    let kind ← Kind.fromNumber (← uint (← field entries (.integer 1)))
    let intentDigest ← fixedBytes 32 (← field entries (.integer 2))
    let bodyLen ← uint (← field entries (.integer 3))
    validateBody kind bodyLen
    let padded ← orSchema (← field entries (.integer 4)).asBytes
    if padded.length ≠ capacity kind ∨ (padded.drop bodyLen).any (· != 0) then .error .schema
    else do
      let object ← Object.new kind intentDigest (padded.take bodyLen)
      if object.bytes ≠ input then .error .nonDeterministic else .ok object

namespace Object

theorem new_ok (o : Object) : new o.kind o.intentDigest o.body = .ok o := by
  rw [new, dif_pos ⟨o.body_pos, o.body_le⟩]

theorem validateBody_ok (o : Object) : validateBody o.kind o.body.length = .ok () := by
  have h1 := o.body_pos
  have h2 := o.body_le
  rw [validateBody, if_neg (by omega)]

theorem decodeObject_bytes (o : Object) : decodeObject o.bytes = .ok o := by
  have hplain := o.plain_entries
  have hversion := field_canonicalMap hplain (.integer 0) rfl
  have hkind := field_canonicalMap hplain (.integer 1) rfl
  have hdigest := field_canonicalMap hplain (.integer 2) rfl
  have hlength := field_canonicalMap hplain (.integer 3) rfl
  have hpadded := field_canonicalMap hplain (.integer 4) rfl
  simp only [canonical] at hversion hkind hdigest hlength hpadded
  have hnum := o.kind.number_lt
  have hlen := o.body_length_lt
  have htail : ((o.padded.drop o.body.length).any (· != 0)) = false := by
    simp [padded]
  have hbody : o.padded.take o.body.length = o.body := by simp [padded]
  have htwo : uint (.integer 2) = .ok 2 := uint_integer (n := 2) (by decide)
  unfold decodeObject
  rw [bytes, decodeCanonical_map hplain]
  have hfive : (canonicalMap o.entries).length = 5 := canonicalMap_length o.entries
  rw [Calls.ok_bind, mapEntries_map, Calls.ok_bind, hversion, Calls.ok_bind, htwo, Calls.ok_bind,
    if_neg (by simp [hfive]), hkind, Calls.ok_bind, uint_integer (by omega), Calls.ok_bind,
    Kind.fromNumber_number, Calls.ok_bind, hdigest, Calls.ok_bind, fixedBytes_bytes, Calls.ok_bind,
    hlength, Calls.ok_bind, uint_integer (by omega), Calls.ok_bind, o.validateBody_ok,
    Calls.ok_bind, hpadded, Calls.ok_bind, Value.asBytes, orSchema_some, Calls.ok_bind,
    if_neg (by simp [htail]), hbody, o.new_ok, Calls.ok_bind, if_neg (by simp [bytes])]

theorem bytes_of_decodeObject {input : Bytes} {o : Object} (h : decodeObject input = .ok o) :
    o.bytes = input := by
  unfold decodeObject at h
  simp only [Calls.except_bind_eq_ok] at h
  obtain ⟨_, -, _, -, _, -, _, -, h⟩ := h
  split_ifs at h
  simp only [Calls.except_bind_eq_ok] at h
  obtain ⟨_, -, _, -, _, -, _, -, _, -, _, -, _, -, _, -, _, -, _, -, h⟩ := h
  split_ifs at h
  simp only [Calls.except_bind_eq_ok] at h
  obtain ⟨o', -, h⟩ := h
  split_ifs at h with hne
  cases h
  exact not_not.mp hne

theorem bytes_injective {o o' : Object} (h : o.bytes = o'.bytes) : o = o' := by
  have h1 := o.decodeObject_bytes
  rw [h, o'.decodeObject_bytes] at h1
  exact (Except.ok.inj h1).symm

/-- The octets of an object: 4,096 or 64,512 of padding and at most 48 more. -/
theorem bytes_length (o : Object) :
    o.bytes.length = 45 + headSize o.body.length + capacity o.kind := by
  have hnum := o.kind.number_lt
  have hcap : headSize (capacity o.kind) = 3 := by cases o.kind <;> decide
  have hk : headSize o.kind.number = 1 := by cases o.kind <;> decide
  have hint : ∀ n : ℕ, size (.integer (n : ℤ)) = headSize n := size_integer_ofNat
  have hvals : [size (.integer 0), size (.integer 1), size (.integer 2), size (.integer 3),
      size (.integer 4)] = [1, 1, 1, 1, 1] := by decide
  simp only [List.cons.injEq, and_true] at hvals
  obtain ⟨h0, h1, h2, h3, h4⟩ := hvals
  rw [bytes, toCanonicalVec_length, size_map]
  simp only [entries, List.map_cons, List.map_nil, List.sum_cons, List.sum_nil, size_bytes,
    hint, h0, h1, h2, h3, h4, hk, padded_length, hcap, Octets.length_val, List.length_cons,
    List.length_nil]
  have h32 : headSize 32 = 2 := rfl
  have h5 : headSize 5 = 1 := rfl
  simp only [h32, zero_add, Nat.reduceAdd, h5]
  omega

theorem bytes_length_le (o : Object) : o.bytes.length ≤ 48 + capacity o.kind := by
  have hlen := o.body_length_lt
  have hsize : headSize o.body.length ≤ 3 := by
    have := (o.body_le.trans (by cases o.kind <;> decide : maximumBody o.kind ≤ 62000))
    unfold headSize
    split_ifs <;> omega
  rw [bytes_length]
  omega

end Object

end CredentialV2
end CbclPairing
