import CbclPairing.CredentialV2.Frame

/-! Application identifiers, the machine carrier, and the presence secrets that
travel apart from it. -/
namespace CbclPairing
namespace CredentialV2
open Codec Codec.Cbor

/-! ### Application identifiers -/

def isLowercase (b : UInt8) : Bool := 97 ≤ b && b ≤ 122
def isUppercase (b : UInt8) : Bool := 65 ≤ b && b ≤ 90
def isDigit (b : UInt8) : Bool := 48 ≤ b && b ≤ 57
def isAlphanumeric (b : UInt8) : Bool := isLowercase b || isUppercase b || isDigit b

/-- `-`, `.`, `_`, `~` and the ASCII alphanumerics. -/
def isUnreserved (b : UInt8) : Bool := isAlphanumeric b || b == 45 || b == 46 || b == 95 || b == 126

/-- Unreserved octets and `! $ & ' ( ) * + , ; = : @`. -/
def isPchar (b : UInt8) : Bool :=
  isUnreserved b || [33, 36, 38, 39, 40, 41, 42, 43, 44, 59, 61, 58, 64].contains b

def hex (b : UInt8) : UInt8 :=
  if isDigit b then b - 48 else if 65 ≤ b && b ≤ 70 then b - 65 + 10 else 0

def isUpperHex (b : UInt8) : Bool := isDigit b || (65 ≤ b && b ≤ 70)

def validLabel (label : Bytes) : Bool :=
  0 < label.length && label.length ≤ 63 && label.head? != some 45 && label.getLast? != some 45 &&
    label.all fun b => isLowercase b || isDigit b || b == 45

def validHost (host : Bytes) : Bool :=
  let labels := host.splitOn 46
  0 < host.length && host.length ≤ 253 && labels.all validLabel &&
    labels.getLast?.any fun label => !label.all isDigit

def decimal (digits : Bytes) : ℕ := digits.foldl (fun acc b => acc * 10 + (b.toNat - 48)) 0

def validPort (port : Bytes) : Bool :=
  0 < port.length && port.length ≤ 5 && port.head? != some 48 && port.all isDigit &&
    decimal port ≤ 65535 && decimal port != 0 && decimal port != 443

/-- The loop over a path: a percent escape takes three octets and must not hide
an unreserved one. -/
def validPath : Bytes → Bool
  | [] => true
  | b :: rest =>
    if b = 37 then
      match rest with
      | high :: low :: rest =>
        isUpperHex high && isUpperHex low &&
          !isUnreserved (hex high <<< 4 ||| hex low) && validPath rest
      | _ => false
    else (b == 47 || isPchar b) && validPath rest

/-- The part before the last `separator` and the part after it. -/
def rsplitOnce (separator : UInt8) (value : Bytes) : Option (Bytes × Bytes) :=
  if value.contains separator then
    let after := (value.reverse.takeWhile (· != separator)).reverse
    some (value.take (value.length - after.length - 1), after)
  else none

def splitHttps (value : Bytes) : Except Error (Bytes × Bytes) :=
  if !isAscii value || value.contains 63 || value.contains 35 then .error .origin
  else if !(ascii "https://").isPrefixOf value then .error .origin
  else
    let authority := (value.drop 8).takeWhile (· != 47)
    if authority = [] ∨ authority.contains 64 then .error .origin
    else
      let valid :=
        match rsplitOnce 58 authority with
        | some (host, port) => validHost host && validPort port
        | none => validHost authority
      if valid then .ok (value.take (8 + authority.length), value.drop (8 + authority.length))
      else .error .origin

def maxApplicationIdOctets : ℕ := 2048

/-- Recognise a canonical HTTPS application identifier and return its origin. -/
def recogniseApplicationId (value : Bytes) : Except Error Bytes :=
  if value = [] ∨ maxApplicationIdOctets < value.length then .error .schema
  else do
    let (origin, path) ← splitHttps value
    if path.head? ≠ some 47 ∨
        ((path.drop 1).splitOn 47).any (fun part => part == [] || part == [46] || part == [46, 46]) ∨
        !validPath path then .error .schema
    else .ok origin

def validateOrigin [Primitives] (value : Bytes) (maximum : ℕ) : Except Error Unit :=
  if value = [] ∨ maximum < value.length ∨ !isAscii value then .error .origin
  else if isHttpsOrigin value then .ok () else .error .origin

theorem recogniseApplicationId_ok {value origin : Bytes}
    (h : recogniseApplicationId value = .ok origin) :
    0 < value.length ∧ value.length ≤ 2048 ∧ isAscii value = true := by
  unfold recogniseApplicationId at h
  split_ifs at h with hlen
  simp only [Calls.except_bind_eq_ok] at h
  obtain ⟨parts, hsplit, -⟩ := h
  have hascii : isAscii value = true := by
    unfold splitHttps at hsplit
    split_ifs at hsplit with h1 h2
    simp only [Bool.or_eq_true, not_or, Bool.not_eq_true', Bool.not_eq_false] at h1
    exact h1.1.1
  simp only [maxApplicationIdOctets, not_or, not_lt] at hlen
  exact ⟨List.length_pos_of_ne_nil hlen.1, hlen.2, hascii⟩

theorem validateOrigin_ok [Primitives] {value : Bytes} {maximum : ℕ}
    (h : validateOrigin value maximum = .ok ()) :
    0 < value.length ∧ value.length ≤ maximum ∧ isAscii value = true := by
  unfold validateOrigin at h
  split_ifs at h with h1
  simp only [not_or, not_lt, Bool.not_eq_true', Bool.not_eq_false] at h1
  exact ⟨List.length_pos_of_ne_nil h1.1, h1.2.1, h1.2.2⟩

/-! ### The carrier -/

def profileName : Bytes := ascii "anuna.io/credential/v2"

structure CarrierInput where
  applicationContext : Bytes
  relayOrigin : Bytes
  mailboxId : Octets 32
  carrierCeremonyId : Octets 32
  carrierNonce : Octets 32
  claimCommitment : Octets 32
  relayExpiresAt : UInt64
  expectedAllocatorKey : Option (Octets 32)
  deriving DecidableEq

/-- A fully recognised machine carrier. -/
structure Carrier [Primitives] extends CarrierInput where
  application : ∃ origin, recogniseApplicationId applicationContext = .ok origin
  relay : validateOrigin relayOrigin 272 = .ok ()

namespace Carrier

variable [Primitives]

theorem ext_input {c d : Carrier} (h : c.toCarrierInput = d.toCarrierInput) : c = d := by
  obtain ⟨c, _, _⟩ := c
  obtain ⟨d, _, _⟩ := d
  obtain rfl : c = d := h
  rfl

instance : DecidableEq Carrier := fun c d =>
  decidable_of_iff (c.toCarrierInput = d.toCarrierInput) ⟨ext_input, fun h => h ▸ rfl⟩

def new (input : CarrierInput) : Except Error Carrier :=
  match h : recogniseApplicationId input.applicationContext with
  | .error e => .error e
  | .ok origin =>
    match hr : validateOrigin input.relayOrigin 272 with
    | .error e => .error e
    | .ok () => .ok ⟨input, ⟨origin, h⟩, hr⟩

def entries (c : Carrier) : List (Value × Value) :=
  [(.text (ascii "version"), .integer 2),
    (.text (ascii "profile"), .text profileName),
    (.text (ascii "application-context"), .text c.applicationContext),
    (.text (ascii "profile-version"), .integer 2),
    (.text (ascii "relay-origin"), .text c.relayOrigin),
    (.text (ascii "locator"), .bytes c.mailboxId.val),
    (.text (ascii "carrier-ceremony-id"), .bytes c.carrierCeremonyId.val),
    (.text (ascii "carrier-nonce"), .bytes c.carrierNonce.val),
    (.text (ascii "claim-commitment"), .bytes c.claimCommitment.val),
    (.text (ascii "relay-expires-at"), .integer c.relayExpiresAt.toNat)] ++
  match c.expectedAllocatorKey with
  | some key => [(.text (ascii "expected-allocator-key"), .bytes key.val)]
  | none => []

end Carrier

variable [Primitives]

/-- The one deterministic encoding. A carrier that exists re-encodes. -/
def encodeCarrier (carrier : Carrier) : Bytes := toCanonicalVec (.map carrier.entries)

def decodeCarrier (input : Bytes) : Except Error Carrier := do
  let value ← decodeCanonical input
  let entries ← mapEntries value
  let keyField := optionalField entries "expected-allocator-key"
  let expectedLen := if keyField.isSome then 11 else 10
  let version ← uintField entries "version"
  let profile ← textField entries "profile"
  let profileVersion ← uintField entries "profile-version"
  if entries.length ≠ expectedLen ∨ version ≠ 2 ∨ profile ≠ profileName ∨ profileVersion ≠ 2 then
    .error .schema
  else do
    let applicationContext ← textField entries "application-context"
    let relayOrigin ← textField entries "relay-origin"
    let mailboxId ← bytesField 32 entries "locator"
    let carrierCeremonyId ← bytesField 32 entries "carrier-ceremony-id"
    let carrierNonce ← bytesField 32 entries "carrier-nonce"
    let claimCommitment ← bytesField 32 entries "claim-commitment"
    let relayExpiresAt ← uintField entries "relay-expires-at"
    let expectedAllocatorKey ← keyField.mapM (fixedBytes 32)
    let carrier ← Carrier.new
      { applicationContext, relayOrigin, mailboxId, carrierCeremonyId, carrierNonce,
        claimCommitment, relayExpiresAt := UInt64.ofNat relayExpiresAt, expectedAllocatorKey }
    if encodeCarrier carrier ≠ input then .error .nonDeterministic else .ok carrier

/-- The digest of the exact carrier bytes. -/
def Carrier.digest (carrier : Carrier) : Octets 32 := sha256 (encodeCarrier carrier)

/-- The CPace secret and the claim token, until it is spent. -/
structure Presence where
  cpaceSecret : Octets 16
  claimToken : Option ClaimToken
  deriving DecidableEq

namespace Presence

def new (cpaceSecret : Octets 16) (claimToken : ClaimToken) : Presence :=
  ⟨cpaceSecret, some claimToken⟩

def takeClaimToken : Calls.Call Error Presence ClaimToken := do
  let presence ← get
  match presence.claimToken with
  | none => throw .terminal
  | some token => do
    set { presence with claimToken := none }
    pure token

end Presence

/-- The secrets three words can name: a fixed head and thirty free bits. -/
def manualSecret (secret : Octets 16) : Bool :=
  secret.val.take 12 == ascii "SSPAIR-M1" ++ [0, 0, 0] && secret.val.getD 12 0 &&& 0xc0 == 0

/-! ### The one encoding -/

namespace Carrier

omit [Primitives] in
theorem plain_text {d : ℕ} {s : Bytes} (hlen : s.length ≤ 2048) (hascii : isAscii s = true) :
    Plain (d + 1) (.text s) :=
  ⟨by omega, validUtf8_of_isAscii hascii⟩

theorem plain_entries (c : Carrier) : Plain maxDepth (.map c.entries) := by
  obtain ⟨origin, happ⟩ := c.application
  obtain ⟨-, happ, happ'⟩ := recogniseApplicationId_ok happ
  obtain ⟨-, hrel, hrel'⟩ := validateOrigin_ok c.relay
  have hexp := c.relayExpiresAt.toNat_lt
  have hint : Plain 256 (.integer c.relayExpiresAt.toNat) := by
    simp only [Plain]
    omega
  have h32 : ∀ x : Octets 32, Plain 256 (.bytes x.val) := fun x => by simp [Plain]
  have hkeys : ∀ s ∈ ["version", "profile", "application-context", "profile-version",
      "relay-origin", "locator", "carrier-ceremony-id", "carrier-nonce", "claim-commitment",
      "relay-expires-at", "expected-allocator-key"], Plain 256 (.text (ascii s)) := by
    intro s hs
    refine plain_text ?_ ?_ <;> revert s <;> decide
  have hprofile : Plain 256 (.text profileName) := plain_text (by decide) (by decide)
  have htwo : Plain 256 (.integer 2) := by simp [Plain]
  have happ : Plain 256 (.text c.applicationContext) := plain_text happ happ'
  have hrel : Plain 256 (.text c.relayOrigin) := plain_text (by omega) hrel'
  simp only [List.forall_mem_cons, List.not_mem_nil, false_imp_iff, implies_true, and_true]
    at hkeys
  unfold entries
  cases c.expectedAllocatorKey with
  | none =>
    refine ⟨by simp, by simp only [List.append_nil, List.map]; decide, ?_⟩
    simp only [List.append_nil, List.forall_mem_cons, List.not_mem_nil, false_imp_iff,
      implies_true, and_true]
    simp [hkeys, hprofile, htwo, happ, hrel, h32, hint]
  | some key =>
    refine ⟨by simp, by simp only [List.cons_append, List.nil_append, List.map]; decide, ?_⟩
    simp only [List.cons_append, List.nil_append, List.forall_mem_cons, List.not_mem_nil,
      false_imp_iff, implies_true, and_true]
    simp [hkeys, hprofile, htwo, happ, hrel, h32, hint]

theorem new_toCarrierInput (c : Carrier) : new c.toCarrierInput = .ok c := by
  obtain ⟨input, ⟨origin, h⟩, hr⟩ := c
  unfold new
  split
  · next e he => simp [h] at he
  · split
    · next e he => simp [hr] at he
    · rfl

theorem toCarrierInput_of_new {input : CarrierInput} {c : Carrier} (h : new input = .ok c) :
    c.toCarrierInput = input := by
  unfold new at h
  split at h
  · simp at h
  · split at h
    · simp at h
    · obtain rfl := Except.ok.inj h
      rfl

theorem textField_canonicalMap (c : Carrier) (key : String) {s : Bytes}
    (h : lookup (.text (ascii key)) c.entries = some (.text s)) :
    textField (canonicalMap c.entries) key = .ok s := by
  rw [textField, field_canonicalMap c.plain_entries _ h]
  rfl

theorem bytesField_canonicalMap (c : Carrier) (key : String) {x : Octets 32}
    (h : lookup (.text (ascii key)) c.entries = some (.bytes x.val)) :
    bytesField 32 (canonicalMap c.entries) key = .ok x := by
  rw [bytesField, field_canonicalMap c.plain_entries _ h, Calls.ok_bind, canonical,
    fixedBytes_bytes]

theorem uintField_canonicalMap (c : Carrier) (key : String) {n : ℕ} (hn : n < 2 ^ 64)
    (h : lookup (.text (ascii key)) c.entries = some (.integer n)) :
    uintField (canonicalMap c.entries) key = .ok n := by
  rw [uintField, field_canonicalMap c.plain_entries _ h, Calls.ok_bind, canonical,
    uint_integer hn]

theorem keyField_canonicalMap (c : Carrier) :
    optionalField (canonicalMap c.entries) "expected-allocator-key" =
      c.expectedAllocatorKey.map fun key => .bytes key.val := by
  rw [optionalField, lookup_canonicalMap c.plain_entries]
  unfold entries
  cases c.expectedAllocatorKey <;> rfl

/-- Every carrier is read back from its encoding. -/
theorem decodeCarrier_encodeCarrier (c : Carrier) : decodeCarrier (encodeCarrier c) = .ok c := by
  have hplain := c.plain_entries
  have hversion := c.uintField_canonicalMap "version" (n := 2) (by decide) rfl
  have hprofile := c.textField_canonicalMap "profile" rfl
  have hprofileVersion := c.uintField_canonicalMap "profile-version" (n := 2) (by decide) rfl
  have hcontext := c.textField_canonicalMap "application-context" rfl
  have horigin := c.textField_canonicalMap "relay-origin" rfl
  have hlocator := c.bytesField_canonicalMap "locator" rfl
  have hceremony := c.bytesField_canonicalMap "carrier-ceremony-id" rfl
  have hnonce := c.bytesField_canonicalMap "carrier-nonce" rfl
  have hcommitment := c.bytesField_canonicalMap "claim-commitment" rfl
  have hexpires := c.uintField_canonicalMap "relay-expires-at" c.relayExpiresAt.toNat_lt rfl
  have hkey := c.keyField_canonicalMap
  have hlength : (canonicalMap c.entries).length =
      if (c.expectedAllocatorKey.map fun key => Value.bytes key.val).isSome then 11 else 10 := by
    rw [canonicalMap_length]
    unfold entries
    cases c.expectedAllocatorKey <;> rfl
  have hread : ((c.expectedAllocatorKey.map fun key => Value.bytes key.val).mapM (fixedBytes 32)) =
      .ok c.expectedAllocatorKey := by
    cases c.expectedAllocatorKey with
    | none => rfl
    | some key =>
      simp only [Option.map_some, Option.mapM_some, fixedBytes_bytes]
      rfl
  unfold decodeCarrier encodeCarrier
  rw [decodeCanonical_map hplain, Calls.ok_bind, mapEntries_map, Calls.ok_bind, hversion,
    Calls.ok_bind, hprofile, Calls.ok_bind, hprofileVersion, Calls.ok_bind, hkey,
    if_neg (by simp [hlength]), hcontext, Calls.ok_bind, horigin, Calls.ok_bind, hlocator,
    Calls.ok_bind, hceremony, Calls.ok_bind, hnonce, Calls.ok_bind, hcommitment, Calls.ok_bind,
    hexpires, Calls.ok_bind, hread, Calls.ok_bind, UInt64.ofNat_toNat, c.new_toCarrierInput,
    Calls.ok_bind, if_neg (by simp)]

/-- The octets of a carrier: 303 fixed ones, its two texts, its expiry and its
optional key. -/
theorem encodeCarrier_length (c : Carrier) :
    (encodeCarrier c).length = 303 + (headSize c.applicationContext.length +
      c.applicationContext.length) + (headSize c.relayOrigin.length + c.relayOrigin.length) +
      headSize c.relayExpiresAt.toNat + if c.expectedAllocatorKey.isSome then 57 else 0 := by
  have hkeys : ([(.text (ascii "version")), (.text (ascii "profile")), .text profileName,
      (.text (ascii "application-context")), (.text (ascii "profile-version")),
      (.text (ascii "relay-origin")), (.text (ascii "locator")),
      (.text (ascii "carrier-ceremony-id")), (.text (ascii "carrier-nonce")),
      (.text (ascii "claim-commitment")), (.text (ascii "relay-expires-at")),
      (.text (ascii "expected-allocator-key")), .integer 2] : List Value).map size =
      [8, 8, 23, 20, 16, 13, 8, 20, 14, 17, 17, 23, 1] := by decide
  simp only [List.map_cons, List.map_nil, List.cons.injEq, and_true] at hkeys
  obtain ⟨h1, h2, h3, h4, h5, h6, h7, h8, h9, h10, h11, h12, h13⟩ := hkeys
  have h32 : headSize 32 = 2 := rfl
  rw [encodeCarrier, toCanonicalVec_length, size_map]
  unfold entries
  simp only [List.map_append, List.map_cons, List.map_nil, List.sum_append, List.sum_cons,
    List.sum_nil, h1, h2, h3, h4, h5, h6, h7, h8, h9, h10, h11, h13, size_bytes, size_text,
    size_integer_ofNat, Octets.length_val, h32]
  cases c.expectedAllocatorKey with
  | none =>
    have hhead : headSize 10 = 1 := rfl
    simp only [List.length_append, List.length_cons, List.length_nil, List.map_nil, List.sum_nil,
      Option.isSome_none, zero_add, Nat.reduceAdd, hhead]
    simp only [Bool.false_eq_true, if_false]
    omega
  | some key =>
    have hhead : headSize 11 = 1 := rfl
    simp only [List.length_append, List.length_cons, List.length_nil, List.map_cons, List.map_nil,
      List.sum_cons, List.sum_nil, Option.isSome_some, zero_add, Nat.reduceAdd, hhead, h12,
      size_bytes, Octets.length_val, h32]
    simp only [if_true]
    omega

theorem encodeCarrier_length_le (c : Carrier) : (encodeCarrier c).length ≤ 2695 := by
  obtain ⟨origin, happ⟩ := c.application
  obtain ⟨-, happ, -⟩ := recogniseApplicationId_ok happ
  obtain ⟨-, hrel, -⟩ := validateOrigin_ok c.relay
  have hexp := headSize_le (Nat.le_of_lt_succ c.relayExpiresAt.toNat_lt)
  have ha := headSize_le happ
  have hr := headSize_le hrel
  have h1 : headSize 2048 = 3 := rfl
  have h2 : headSize 272 = 3 := rfl
  have h3 : headSize 18446744073709551615 = 9 := rfl
  rw [encodeCarrier_length]
  split_ifs <;> omega

theorem encodeCarrier_pos (c : Carrier) : 0 < (encodeCarrier c).length := by
  rw [encodeCarrier_length]
  omega

end Carrier
end CredentialV2
end CbclPairing
