import CbclPairing.CredentialV2.Endpoint

/-! Sealed endpoint checkpoints: the outer envelope, the inner layout, and the
round trip through both. -/
namespace CbclPairing
namespace CredentialV2
open Codec Codec.Cbor Calls

def maxCiphertext : ℕ := 69632
def maxInner : ℕ := maxCiphertext - 16

/-! ### Binary layout -/

def appendBytes (value : Bytes) : Except Error Bytes :=
  if value.length < 2 ^ 32 then .ok (beBytes 4 value.length ++ value) else .error .size

def sideOctet : Side → UInt8
  | .allocator => 0
  | .claimant => 1

def boolOctet (b : Bool) : UInt8 := if b then 1 else 0

/-- A presence octet and the octets that follow it. -/
def optional {α : Type} (write : α → Bytes) : Option α → Bytes
  | some a => 1 :: write a
  | none => [0]

namespace Read

variable {α : Type}

def byte : Cursor Error UInt8 := Cursor.byte .schema

def array (n : ℕ) : Cursor Error (Octets n) := Cursor.array .schema n

def u64 : Cursor Error UInt64 := do
  let n ← Cursor.uint .schema 8
  pure (UInt64.ofNat n)

def side : Cursor Error Side := do
  let b ← byte
  if b = 0 then pure .allocator else if b = 1 then pure .claimant else Cursor.fail .schema

def boolean : Cursor Error Bool := do
  let b ← byte
  if b = 0 then pure false else if b = 1 then pure true else Cursor.fail .schema

def option (read : Cursor Error α) : Cursor Error (Option α) := do
  let b ← byte
  if b = 0 then pure none
  else if b = 1 then do
    let a ← read
    pure (some a)
  else Cursor.fail .schema

def lengthPrefixedAllowEmpty (maximum : ℕ) : Cursor Error Bytes := do
  let length ← Cursor.uint .schema 4
  if maximum < length then Cursor.fail .size else Cursor.take .schema length

def lengthPrefixed (maximum : ℕ) : Cursor Error Bytes := do
  let value ← lengthPrefixedAllowEmpty maximum
  if value = [] then Cursor.fail .size else pure value

/-- A verdict that reads nothing. -/
def verdict (x : Except Error α) : Cursor Error α := fun input => x.map fun a => (a, input)

def finished : Cursor Error Bool := fun input => .ok (input.isEmpty, input)

@[simp] theorem byte_run (b : UInt8) (rest : Bytes) : byte (b :: rest) = .ok (b, rest) := rfl

@[simp] theorem array_run {n : ℕ} (x : Octets n) (rest : Bytes) :
    array n (x.val ++ rest) = .ok (x, rest) := Cursor.array_append Error.schema x rest

@[simp] theorem u64_run (n : UInt64) (rest : Bytes) :
    u64 (beBytes 8 n.toNat ++ rest) = .ok (n, rest) := by
  have hn : n.toNat < 256 ^ 8 := n.toNat_lt
  unfold u64
  rw [Cursor.run_bind_ok (Cursor.uint_append hn rest), UInt64.ofNat_toNat]
  rfl

@[simp] theorem side_run (s : Side) (rest : Bytes) :
    side (sideOctet s :: rest) = .ok (s, rest) := by
  cases s <;> rfl

@[simp] theorem boolean_run (b : Bool) (rest : Bytes) :
    boolean (boolOctet b :: rest) = .ok (b, rest) := by
  cases b <;> rfl

theorem option_run {read : Cursor Error α} (write : α → Bytes) (value : Option α)
    (h : ∀ a ∈ value, ∀ rest, read (write a ++ rest) = .ok (a, rest)) (rest : Bytes) :
    option read (optional write value ++ rest) = .ok (value, rest) := by
  cases value with
  | none => rfl
  | some a =>
    simp only [optional, option, List.cons_append]
    rw [Cursor.run_bind_ok (byte_run _ _), if_neg (by decide), if_pos rfl,
      Cursor.run_bind_ok (h a rfl rest)]
    rfl

theorem lengthPrefixedAllowEmpty_run {maximum : ℕ} {value bytes : Bytes}
    (h : appendBytes value = .ok bytes) (hmax : value.length ≤ maximum) (rest : Bytes) :
    lengthPrefixedAllowEmpty maximum (bytes ++ rest) = .ok (value, rest) := by
  unfold appendBytes at h
  split_ifs at h with hlen
  obtain rfl := Except.ok.inj h
  unfold lengthPrefixedAllowEmpty
  rw [List.append_assoc, Cursor.run_bind_ok (Cursor.uint_append (by simpa using hlen) _),
    if_neg (by omega), Cursor.take_append rfl]

theorem lengthPrefixed_run {maximum : ℕ} {value bytes : Bytes}
    (h : appendBytes value = .ok bytes) (hmax : value.length ≤ maximum) (hpos : 0 < value.length)
    (rest : Bytes) : lengthPrefixed maximum (bytes ++ rest) = .ok (value, rest) := by
  unfold lengthPrefixed
  rw [Cursor.run_bind_ok (lengthPrefixedAllowEmpty_run h hmax rest),
    if_neg (List.length_pos_iff.mp hpos)]
  rfl

theorem verdict_run {x : Except Error α} {a : α} (h : x = .ok a) (rest : Bytes) :
    verdict x rest = .ok (a, rest) := by
  rw [h]
  rfl

end Read

theorem appendBytes_eq_ok {value bytes : Bytes} :
    appendBytes value = .ok bytes ↔ value.length < 2 ^ 32 ∧
      bytes = beBytes 4 value.length ++ value := by
  unfold appendBytes
  split_ifs with h
  · exact ⟨fun heq => ⟨h, (Except.ok.inj heq).symm⟩, fun heq => heq.2 ▸ rfl⟩
  · exact ⟨fun heq => by simp at heq, fun heq => absurd heq.1 h⟩

/-! ### The outer envelope -/

def outerDomain : Bytes := ascii "cbcl-pairing-endpoint-checkpoint/v2"
def keyInfoDomain : Bytes := ascii "cbcl-pairing checkpoint key/v2"
def innerDomain : Bytes := ascii "cbcl-pairing endpoint state/v2" ++ [0]

def sideText : Side → Bytes
  | .allocator => ascii "allocator"
  | .claimant => ascii "claimant"

def textSide (value : Value) : Except Error Side :=
  if value.asText = some (ascii "allocator") then .ok .allocator
  else if value.asText = some (ascii "claimant") then .ok .claimant
  else .error .schema

structure Outer where
  side : Side
  ceremony : Octets 32
  generation : UInt64
  expiry : Option UInt64
  nonce : Octets 12
  ciphertext : Bytes
  deriving DecidableEq

def expiryValue : Option UInt64 → Value
  | some value => .integer value.toNat
  | none => .null

/-- The header the envelope and its additional data share. -/
def headerItems (side : Side) (ceremony : Octets 32) (generation : UInt64)
    (expiry : Option UInt64) : List Value :=
  [.text outerDomain, .integer 2, .text (sideText side), .text profileName, .bytes ceremony.val,
    .integer generation.toNat, expiryValue expiry]

def encodeOuter (o : Outer) : Bytes :=
  toCanonicalVec (.array (headerItems o.side o.ceremony o.generation o.expiry ++
    [.bytes o.nonce.val, .bytes o.ciphertext]))

def expiryOf : Value → Except Error (Option UInt64)
  | .null => .ok none
  | value => do
    let n ← uint value
    .ok (some (UInt64.ofNat n))

def decodeOuter (input : Bytes) : Except Error Outer := do
  match ← decodeCanonical input with
  | .array [domain, version, role, profile, ceremony, generation, expiry, nonce, ciphertext] => do
    if domain.asText ≠ some outerDomain then .error .schema
    else do
      let version ← uint version
      if version ≠ 2 ∨ profile.asText ≠ some profileName then .error .schema
      else do
        let side ← textSide role
        let ceremony ← fixedBytes 32 ceremony
        let generation ← uint generation
        let expiry ← expiryOf expiry
        let nonce ← fixedBytes 12 nonce
        let ciphertext ← orSchema ciphertext.asBytes
        if ciphertext = [] ∨ maxCiphertext < ciphertext.length then .error .size
        else .ok ⟨side, ceremony, UInt64.ofNat generation, expiry, nonce, ciphertext⟩
  | _ => .error .schema

@[simp] theorem textSide_sideText (s : Side) : textSide (.text (sideText s)) = .ok s := by
  cases s <;> rfl

@[simp] theorem expiryOf_expiryValue (expiry : Option UInt64) :
    expiryOf (expiryValue expiry) = .ok expiry := by
  cases expiry with
  | none => rfl
  | some value =>
    have hz : uint (.integer value.toNat) = .ok value.toNat := uint_integer value.toNat_lt
    simp [expiryValue, expiryOf, hz]

theorem plain_expiryValue (expiry : Option UInt64) {d : ℕ} : Plain (d + 1) (expiryValue expiry) := by
  cases expiry with
  | none => trivial
  | some value =>
    have := value.toNat_lt
    simp only [expiryValue, Plain]
    omega

theorem canonical_expiryValue (expiry : Option UInt64) :
    canonical (expiryValue expiry) = expiryValue expiry := by
  cases expiry <;> rfl

theorem decodeOuter_encodeOuter {o : Outer} (hpos : o.ciphertext ≠ [])
    (hlen : o.ciphertext.length ≤ maxCiphertext) : decodeOuter (encodeOuter o) = .ok o := by
  have hgen := o.generation.toNat_lt
  have hciphertext : o.ciphertext.length < 2 ^ 64 := by
    unfold maxCiphertext at hlen
    omega
  have hplain : Plain maxDepth (.array (headerItems o.side o.ceremony o.generation o.expiry ++
      [.bytes o.nonce.val, .bytes o.ciphertext])) := by
    refine ⟨by simp [headerItems], ?_⟩
    simp only [headerItems, List.cons_append, List.nil_append, List.forall_mem_cons,
      List.not_mem_nil, false_imp_iff, implies_true, and_true]
    refine ⟨⟨by decide, by decide⟩, ⟨by decide, by decide⟩, ?_, ⟨by decide, by decide⟩, ?_, ?_,
      plain_expiryValue o.expiry, ?_, hciphertext⟩
    · cases o.side <;> exact ⟨by decide, by decide⟩
    · simp [Plain]
    · simp only [Plain]
      omega
    · simp [Plain]
  have hread := decodeCanonical_toCanonicalVec hplain
  have htwo : uint (.integer 2) = .ok 2 := uint_integer (n := 2) (by decide)
  have hgeneration : uint (.integer o.generation.toNat) = .ok o.generation.toNat :=
    uint_integer hgen
  unfold decodeOuter encodeOuter
  rw [hread, Calls.ok_bind, canonical_array]
  simp only [headerItems, List.cons_append, List.nil_append, List.map_cons, List.map_nil,
    canonical, canonical_expiryValue]
  rw [if_neg (by simp [Value.asText]), htwo, Calls.ok_bind, if_neg (by simp [Value.asText]),
    textSide_sideText, Calls.ok_bind, fixedBytes_bytes, Calls.ok_bind, hgeneration, Calls.ok_bind,
    expiryOf_expiryValue, Calls.ok_bind, fixedBytes_bytes, Calls.ok_bind, Value.asBytes,
    orSchema_some, Calls.ok_bind, if_neg (by simp [hpos, hlen]), UInt64.ofNat_toNat]

variable [Primitives]

def checkpointAad (side : Side) (ceremony : Octets 32) (generation : UInt64)
    (expiry : Option UInt64) : Bytes :=
  toCanonicalVec (.array (headerItems side ceremony generation expiry))

def checkpointKeyInfo (side : Side) : Bytes :=
  toCanonicalVec (.array [.text keyInfoDomain, .text (sideText side), .text profileName])

def deriveKey (side : Side) (ceremony wrappingKey : Octets 32) : Octets 32 :=
  hkdfSha512 ceremony.val wrappingKey.val (checkpointKeyInfo side) 32

def sealCheckpointPlaintext (plaintext : Bytes) (side : Side) (carrier : Carrier)
    (wrappingKey : Octets 32) (generation : UInt64) (expiry : Option UInt64) (nonce : Octets 12) :
    Except Error Bytes :=
  if plaintext = [] ∨ maxInner < plaintext.length then .error .size
  else
    let ceremony := carrier.carrierCeremonyId
    let ciphertext := aesGcmEncrypt (deriveKey side ceremony wrappingKey) nonce
      (checkpointAad side ceremony generation expiry) plaintext
    if ciphertext = [] ∨ maxCiphertext < ciphertext.length then .error .size
    else .ok (encodeOuter ⟨side, ceremony, generation, expiry, nonce, ciphertext⟩)

structure OpenedCheckpoint where
  plaintext : Bytes
  expiry : Option UInt64
  nonce : Octets 12
  deriving DecidableEq

def openCheckpointPlaintext (input : Bytes) (wrappingKey : Octets 32) (expectedSide : Side)
    (expectedCarrier : Carrier) (expectedGeneration now : UInt64) :
    Except Error OpenedCheckpoint := do
  let outer ← decodeOuter input
  if outer.side ≠ expectedSide ∨ outer.ceremony ≠ expectedCarrier.carrierCeremonyId ∨
      outer.generation = 0 ∨ outer.generation ≠ expectedGeneration then .error .profile
  else if outer.expiry.any fun expiry => expiry ≤ now then .error .expired
  else
    match aesGcmDecrypt (deriveKey outer.side outer.ceremony wrappingKey) outer.nonce
      (checkpointAad outer.side outer.ceremony outer.generation outer.expiry) outer.ciphertext with
    | none => .error .authentication
    | some plaintext => .ok ⟨plaintext, outer.expiry, outer.nonce⟩

theorem sealCheckpointPlaintext_ok {plaintext : Bytes} (side : Side) (carrier : Carrier)
    (wrappingKey : Octets 32) (generation : UInt64) (expiry : Option UInt64) (nonce : Octets 12)
    (hpos : plaintext ≠ []) (hlen : plaintext.length ≤ maxInner) :
    ∃ checkpoint, sealCheckpointPlaintext plaintext side carrier wrappingKey generation expiry
      nonce = .ok checkpoint := by
  unfold sealCheckpointPlaintext
  rw [if_neg (by simpa using ⟨hpos, hlen⟩)]
  have hsize := Primitives.encrypt_length
    (deriveKey side carrier.carrierCeremonyId wrappingKey) nonce
    (checkpointAad side carrier.carrierCeremonyId generation expiry) plaintext
  refine ⟨_, if_neg ?_⟩
  rw [← List.length_eq_zero_iff, hsize]
  unfold maxInner maxCiphertext at *
  omega

/-- Under its own bindings and before its expiry, a sealed plaintext opens again. -/
theorem openCheckpointPlaintext_seal {plaintext checkpoint : Bytes} {side : Side}
    {carrier : Carrier} {wrappingKey : Octets 32} {generation now : UInt64}
    {expiry : Option UInt64} {nonce : Octets 12}
    (h : sealCheckpointPlaintext plaintext side carrier wrappingKey generation expiry nonce =
      .ok checkpoint)
    (hgeneration : generation ≠ 0) (hnow : ∀ value ∈ expiry, now < value) :
    openCheckpointPlaintext checkpoint wrappingKey side carrier generation now =
      .ok ⟨plaintext, expiry, nonce⟩ := by
  unfold sealCheckpointPlaintext at h
  dsimp only at h
  split_ifs at h with hplain hcipher
  obtain rfl := Except.ok.inj h
  simp only [not_or, not_lt] at hcipher
  have hlive : (expiry.any fun value => decide (value ≤ now)) = false := by
    cases expiry with
    | none => rfl
    | some value => simpa using hnow value rfl
  unfold openCheckpointPlaintext
  rw [decodeOuter_encodeOuter hcipher.1 hcipher.2, Calls.ok_bind, if_neg (by simpa using hgeneration),
    if_neg (by simp [hlive])]
  simp only [Primitives.decrypt_encrypt]

/-- What opens has not expired. -/
theorem openCheckpointPlaintext_live {plaintext checkpoint : Bytes} {side : Side}
    {carrier : Carrier} {wrappingKey : Octets 32} {generation now : UInt64}
    {expiry : Option UInt64} {nonce : Octets 12} {opened : OpenedCheckpoint}
    (h : sealCheckpointPlaintext plaintext side carrier wrappingKey generation expiry nonce =
      .ok checkpoint)
    (hgeneration : generation ≠ 0)
    (hopen : openCheckpointPlaintext checkpoint wrappingKey side carrier generation now =
      .ok opened) : ∀ value ∈ expiry, now < value := by
  unfold sealCheckpointPlaintext at h
  dsimp only at h
  split_ifs at h with hplain hcipher
  obtain rfl := Except.ok.inj h
  simp only [not_or, not_lt] at hcipher
  unfold openCheckpointPlaintext at hopen
  rw [decodeOuter_encodeOuter hcipher.1 hcipher.2, Calls.ok_bind,
    if_neg (by simpa using hgeneration)] at hopen
  obtain ⟨hlive, -⟩ := Calls.guard_eq_ok.mp hopen
  rintro value rfl
  simpa using hlive

/-! ### The inner layout -/

omit [Primitives] in
def phaseOctet : Phase → UInt8
  | .begin => 0
  | .offered => 1
  | .intentApproved => 2
  | .prepared => 3
  | .confirmed => 4
  | .finalApproved => 5
  | .payloadSent => 6
  | .terminal => 7
  | .accountSelected => 8

omit [Primitives] in
def octetPhases : List Phase :=
  [.begin, .offered, .intentApproved, .prepared, .confirmed, .finalApproved, .payloadSent,
    .terminal, .accountSelected]

omit [Primitives] in
def numberPhase (b : UInt8) : Except Error Phase := orSchema octetPhases[b.toNat]?

omit [Primitives] in
@[simp] theorem numberPhase_phaseOctet (phase : Phase) : numberPhase (phaseOctet phase) = .ok phase := by
  cases phase <;> rfl

/-- The own latest object is left out while its sealed frame is cached. -/
def lastBytes (side : Side) (relay : RelayState) (last : LastObject) : Option Bytes :=
  last.bytes.filter fun _ => !(last.sender == side && relay.cachedOutbound.isSome)

def appendOptionalBytes : Option Bytes → Except Error Bytes
  | some value => do
    let bytes ← appendBytes value
    .ok (1 :: bytes)
  | none => .ok [0]

def appendLast (side : Side) (relay : RelayState) : Option LastObject → Except Error Bytes
  | some last => do
    let bytes ← appendOptionalBytes (lastBytes side relay last)
    .ok ([1, sideOctet last.sender, UInt8.ofNat last.kind.number] ++ last.intentDigest.val ++
      last.contentHash.val ++ bytes)
  | none => .ok [0]

def counterBytes (counter : Option UInt64) : Bytes :=
  optional (fun value => beBytes 8 value.toNat) counter

def appendChannel (c : SecureChannel) : Bytes :=
  [sideOctet c.localSide] ++ c.transcriptHash.val ++ c.sendKey.val ++ c.receiveKey.val ++
    c.sendIv.val ++ c.receiveIv.val ++ c.exporter.val ++ counterBytes c.nextSendCounter ++
    counterBytes c.nextReceiveCounter ++ [boolOctet c.terminal]

def appendFrame : Option Frame → Except Error Bytes
  | some frame => do
    let encoded ← encodeFrame frame
    let bytes ← appendBytes encoded
    .ok (1 :: bytes)
  | none => .ok [0]

def appendRelay (r : RelayState) : Except Error Bytes := do
  let cached ← appendFrame r.cachedOutbound
  .ok (r.membershipToken.val ++ [r.nextLocalSequence, r.nextPeerSequence, boolOctet r.awaitingAck] ++
    cached)

def encodeInner {V : Type} [BodyVerifier V] (s : Established V) (generation : UInt64)
    (nonce : Octets 12) : Except Error Bytes := do
  let e := s.endpoint
  let carrier ← appendBytes (encodeCarrier e.carrier)
  let last ← appendLast e.side s.relay e.last
  let verifierState ← BodyVerifier.checkpointState e.bodyVerifier
  let verifierBytes ← appendBytes verifierState
  let relay ← appendRelay s.relay
  .ok (innerDomain ++ [sideOctet e.side] ++ carrier ++ [phaseOctet e.phase] ++
    optional Subtype.val e.intentDigest ++ last ++ verifierBytes ++ beBytes 8 generation.toNat ++
    nonce.val ++ appendChannel s.channel ++ relay)

namespace Read

omit [Primitives] in
def channel : Cursor Error SecureChannel := do
  let localSide ← side
  let transcriptHash ← array 64
  let sendKey ← array 32
  let receiveKey ← array 32
  let sendIv ← array 12
  let receiveIv ← array 12
  let exporter ← array 32
  let nextSendCounter ← option u64
  let nextReceiveCounter ← option u64
  let terminal ← boolean
  pure { localSide, transcriptHash, sendKey, receiveKey, sendIv, receiveIv, exporter,
         nextSendCounter, nextReceiveCounter, terminal }

omit [Primitives] in
def frame (maximum : ℕ) : Cursor Error Frame := do
  let bytes ← lengthPrefixed maximum
  verdict (decodeFrame bytes)

omit [Primitives] in
def relay : Cursor Error RelayState := do
  let membershipToken ← array 32
  let nextLocalSequence ← byte
  let nextPeerSequence ← byte
  let awaitingAck ← boolean
  let cachedOutbound ← option (frame maxCiphertext)
  if awaitingAck ≠ cachedOutbound.isSome ∨ !cachedOutbound.all Frame.isSealed then
    Cursor.fail .schema
  else pure { membershipToken, nextLocalSequence, nextPeerSequence, awaitingAck, cachedOutbound }

/-- The object behind retained bytes must be the recorded one. -/
def retained (kind : Kind) (intentDigest contentHash : Octets 32) (bytes : Bytes) :
    Except Error Unit := do
  let object ← decodeObject bytes
  if object.kind ≠ kind ∨ object.intentDigest ≠ intentDigest ∨ object.contentHash ≠ contentHash then
    .error .schema
  else .ok ()

def last : Cursor Error LastObject := do
  let sender ← side
  let number ← byte
  let kind ← verdict (Kind.fromNumber number.toNat)
  let intentDigest ← array 32
  let contentHash ← array 32
  let bytes ← option (lengthPrefixed maxCiphertext)
  match bytes with
  | some bytes => verdict (retained kind intentDigest contentHash bytes)
  | none => pure ()
  pure { sender, bytes, kind, intentDigest, contentHash }

end Read

def consistentProjection (phase : Phase) (intentDigest : Option (Octets 32))
    (last : Option LastObject) : Bool :=
  match phase, intentDigest, last with
  | .begin, none, none => true
  | .accountSelected, none, some last =>
    last.sender == .claimant && last.kind == .accountSelect &&
      last.intentDigest == accountSelectIntentDigest
  | .offered, some intent, some last => last.kind == .offer && last.intentDigest == intent
  | .intentApproved, some intent, some last =>
    last.kind == .intentApprove && last.intentDigest == intent
  | .prepared, some intent, some last => last.kind == .preparation && last.intentDigest == intent
  | .confirmed, some intent, some last =>
    last.intentDigest == intent &&
      (last.kind == .comparisonConfirmed || last.kind == .bindingConfirmed)
  | .finalApproved, some intent, some last =>
    last.kind == .finalApprove && last.intentDigest == intent
  | .payloadSent, some intent, some last => last.kind == .payload && last.intentDigest == intent
  -- the allocator has released its own Receipt and may still retransmit it
  | .terminal, some intent, some last =>
    last.sender == .allocator && last.kind == .receipt && last.intentDigest == intent
  | _, _, _ => false

/-- Bytes may be missing only for an own object whose frame is still cached. -/
def missingBytes (side : Side) (relay : RelayState) (last : LastObject) : Bool :=
  last.bytes.isNone && !(last.sender == side && relay.cachedOutbound.isSome)

def restoreVerifier {V : Type} [BodyVerifier V] (v : V) (state : Bytes) : Except Error V :=
  match BodyVerifier.restoreCheckpointState v state with
  | (.ok (), v') => .ok v'
  | (.error e, _) => .error e

def decodeInner {V : Type} [BodyVerifier V] (expectedSide : Side) (expectedCarrier : Carrier)
    (expectedGeneration : UInt64) (expectedNonce : Octets 12) (bodyVerifier : V) :
    Cursor Error (Established V) := do
  let domain ← Cursor.take .schema innerDomain.length
  if domain ≠ innerDomain then Cursor.fail .schema
  else do
    let side ← Read.side
    let carrierBytes ← Read.lengthPrefixed maxInner
    let carrier ← Read.verdict (decodeCarrier carrierBytes)
    if side ≠ expectedSide ∨ carrier ≠ expectedCarrier then Cursor.fail .profile
    else do
      let phaseNumber ← Read.byte
      let phase ← Read.verdict (numberPhase phaseNumber)
      let intentDigest ← Read.option (Read.array 32)
      let last ← Read.option Read.last
      let verifierState ← Read.lengthPrefixedAllowEmpty maxInner
      let bodyVerifier ← Read.verdict (restoreVerifier bodyVerifier verifierState)
      let generation ← Read.u64
      let nonce ← Read.array 12
      let channel ← Read.channel
      let relay ← Read.relay
      let finished ← Read.finished
      if !finished ∨ generation ≠ expectedGeneration ∨ nonce ≠ expectedNonce ∨
          channel.localSide ≠ side ∨ channel.terminal ∨ last.any (missingBytes side relay) ∨
          !consistentProjection phase intentDigest last then Cursor.fail .schema
      else
        pure
          { endpoint :=
              { side, carrier, phase, intentDigest, last, bodyVerifier
                checkpointGeneration := generation, checkpointNonce := some nonce }
            channel, relay }

/-- The numeric expiry has to be the carrier's and still ahead. -/
def validateExpiry (expiry : Option UInt64) (carrierExpiry now : UInt64) : Except Error Unit :=
  match expiry with
  | some value =>
    if value = carrierExpiry ∧ now < value then .ok ()
    else if carrierExpiry ≤ now then .error .expired
    else .error .schema
  | none => .error .schema

/-- Which states may be sealed and restored at all. -/
def validateCheckpointPhase (side : Side) (phase : Phase) (receiptReleased : Bool)
    (expiry : Option UInt64) (carrierExpiry now : UInt64) : Except Error Unit :=
  -- a Terminal allocator that released its own Receipt may have to repeat it
  if phase = .terminal ∧ !(side == .allocator && receiptReleased) then .error .terminal
  else
    match side with
    | .allocator => validateExpiry expiry carrierExpiry now
    | .claimant =>
      if phase = .payloadSent then if expiry.isNone then .ok () else .error .schema
      else if phase = .finalApproved then validateExpiry expiry carrierExpiry now
      else .error .phase

namespace Endpoint

variable {V : Type} [BodyVerifier V]

/-- Seal the endpoint with the channel and relay projection it drives. -/
def sealCheckpoint (channel : SecureChannel) (relay : RelayState) (wrappingKey : Octets 32)
    (generation : UInt64) (expiry : Option UInt64) (nonce : Octets 12) (now : UInt64) :
    Call Error (Endpoint V) Bytes := do
  let e ← get
  if channel.localSide ≠ e.side then throw .direction
  else do
    Call.ofExcept (validateCheckpointPhase e.side e.phase e.receiptReleased expiry
      e.carrier.relayExpiresAt now)
    if generation = 0 ∨ generation ≠ saturatingSucc e.checkpointGeneration ∨
        e.checkpointNonce = some nonce then throw .counter
    else do
      let plaintext ← Call.ofExcept (encodeInner ⟨e, channel, relay⟩ generation nonce)
      let checkpoint ← Call.ofExcept (sealCheckpointPlaintext plaintext e.side e.carrier
        wrappingKey generation expiry nonce)
      set { e with checkpointGeneration := generation, checkpointNonce := some nonce }
      pure checkpoint

/-- Open a checkpoint only under the exact bindings the caller holds. -/
def restoreCheckpoint (input : Bytes) (wrappingKey : Octets 32) (expectedSide : Side)
    (expectedCarrier : Carrier) (expectedGeneration now : UInt64) (bodyVerifier : V) :
    Except Error (Established V) := do
  let opened ← openCheckpointPlaintext input wrappingKey expectedSide expectedCarrier
    expectedGeneration now
  let (s, _) ← decodeInner expectedSide expectedCarrier expectedGeneration opened.nonce bodyVerifier
    opened.plaintext
  validateCheckpointPhase s.endpoint.side s.endpoint.phase s.endpoint.receiptReleased
    opened.expiry s.endpoint.carrier.relayExpiresAt now
  .ok s

end Endpoint

/-! ### The round trip -/

namespace Read

omit [Primitives] in
theorem counter_run (counter : Option UInt64) (rest : Bytes) :
    option u64 (counterBytes counter ++ rest) = .ok (counter, rest) :=
  option_run _ _ (fun value _ rest => u64_run value rest) rest

omit [Primitives] in
theorem channel_run (c : SecureChannel) (rest : Bytes) :
    channel (appendChannel c ++ rest) = .ok (c, rest) := by
  unfold channel appendChannel
  simp only [List.append_assoc, List.cons_append, List.nil_append]
  rw [Cursor.run_bind_ok (side_run _ _), Cursor.run_bind_ok (array_run _ _),
    Cursor.run_bind_ok (array_run _ _), Cursor.run_bind_ok (array_run _ _),
    Cursor.run_bind_ok (array_run _ _), Cursor.run_bind_ok (array_run _ _),
    Cursor.run_bind_ok (array_run _ _), Cursor.run_bind_ok (counter_run _ _),
    Cursor.run_bind_ok (counter_run _ _), Cursor.run_bind_ok (boolean_run _ _)]
  rfl

omit [Primitives] in
theorem frame_run {maximum : ℕ} {f : Frame} {encoded bytes : Bytes}
    (hencode : encodeFrame f = .ok encoded) (happend : appendBytes encoded = .ok bytes)
    (hmax : encoded.length ≤ maximum) (rest : Bytes) :
    frame maximum (bytes ++ rest) = .ok (f, rest) := by
  have hpos : 0 < encoded.length := by
    obtain ⟨-, rfl⟩ := Frame.encodeFrame_eq_ok.mp hencode
    rw [toCanonicalVec_length, size_map]
    have := headSize_pos f.entries.length
    omega
  unfold frame
  rw [Cursor.run_bind_ok (lengthPrefixed_run happend hmax hpos rest)]
  exact verdict_run (Frame.decodeFrame_of_encodeFrame hencode) rest

omit [Primitives] in
/-- Reading back an optional frame; its size is at most that of what holds it. -/
theorem optionalFrame_run {maximum : ℕ} {f : Option Frame} {bytes : Bytes}
    (h : appendFrame f = .ok bytes) (hmax : bytes.length ≤ maximum) (rest : Bytes) :
    option (frame maximum) (bytes ++ rest) = .ok (f, rest) := by
  cases f with
  | none =>
    obtain rfl := Except.ok.inj h
    rfl
  | some f =>
    simp only [appendFrame, Calls.except_bind_eq_ok, Except.ok.injEq] at h
    obtain ⟨encoded, hencode, framed, happend, rfl⟩ := h
    have hlen : encoded.length ≤ maximum := by
      obtain ⟨-, rfl⟩ := appendBytes_eq_ok.mp happend
      simp only [List.length_cons, List.length_append] at hmax
      omega
    refine option_run (fun _ => framed) (some f) ?_ rest
    rintro g hg rest
    obtain rfl := Option.some.inj hg
    exact frame_run hencode happend hlen rest

omit [Primitives] in
theorem relay_run {r : RelayState} {bytes : Bytes} (h : appendRelay r = .ok bytes)
    (hawait : r.awaitingAck = r.cachedOutbound.isSome)
    (hsealed : r.cachedOutbound.all Frame.isSealed = true) (hmax : bytes.length ≤ maxCiphertext)
    (rest : Bytes) : relay (bytes ++ rest) = .ok (r, rest) := by
  simp only [appendRelay, Calls.except_bind_eq_ok, Except.ok.injEq] at h
  obtain ⟨cached, hcached, rfl⟩ := h
  have hlen : cached.length ≤ maxCiphertext := by
    simp only [List.length_append, Octets.length_val, List.length_cons, List.length_nil] at hmax
    omega
  unfold relay
  simp only [List.append_assoc, List.cons_append, List.nil_append]
  rw [Cursor.run_bind_ok (array_run _ _), Cursor.run_bind_ok (byte_run _ _),
    Cursor.run_bind_ok (byte_run _ _), Cursor.run_bind_ok (boolean_run _ _),
    Cursor.run_bind_ok (optionalFrame_run hcached hlen rest), if_neg (by simp [hawait, hsealed])]
  rfl

end Read

/-- The recorded bytes of a latest object are those of one object. -/
def LastObject.Faithful (last : LastObject) : Prop :=
  ∀ bytes ∈ last.bytes, ∃ object : Object, bytes = object.bytes ∧ object.kind = last.kind ∧
    object.intentDigest = last.intentDigest ∧ object.contentHash = last.contentHash

theorem Read.retained_ok {last : LastObject} (h : last.Faithful) {bytes : Bytes}
    (hbytes : bytes ∈ last.bytes) :
    Read.retained last.kind last.intentDigest last.contentHash bytes = .ok () := by
  obtain ⟨object, rfl, hkind, hintent, hhash⟩ := h bytes hbytes
  unfold Read.retained
  rw [object.decodeObject_bytes, Calls.ok_bind, if_neg (by simp [hkind, hintent, hhash])]

theorem LastObject.Faithful.filter {last : LastObject} (h : last.Faithful) (p : Bytes → Bool) :
    ({ last with bytes := last.bytes.filter p } : LastObject).Faithful := by
  intro bytes hbytes
  exact h bytes (Option.mem_filter_iff.mp hbytes).1

theorem Read.last_run {last : LastObject} (h : last.Faithful) {bytes : Bytes}
    (happend : appendOptionalBytes last.bytes = .ok bytes) (rest : Bytes) :
    Read.last (([sideOctet last.sender, UInt8.ofNat last.kind.number] ++ last.intentDigest.val ++
      last.contentHash.val ++ bytes) ++ rest) = .ok (last, rest) := by
  have hnumber : (UInt8.ofNat last.kind.number).toNat = last.kind.number := by
    cases last.kind <;> rfl
  have hoption : Read.option (Read.lengthPrefixed maxCiphertext) (bytes ++ rest) =
      .ok (last.bytes, rest) := by
    cases hbytes : last.bytes with
    | none =>
      rw [hbytes] at happend
      obtain rfl := Except.ok.inj happend
      rfl
    | some value =>
      rw [hbytes] at happend
      simp only [appendOptionalBytes, Calls.except_bind_eq_ok, Except.ok.injEq] at happend
      obtain ⟨framed, hframed, rfl⟩ := happend
      obtain ⟨object, rfl, -⟩ := h value hbytes
      have hlen := object.bytes_length_le
      have hcap : capacity object.kind ≤ 64512 := by cases object.kind <;> decide
      refine Read.option_run (fun _ => framed) (some object.bytes) ?_ rest
      rintro b hb rest
      obtain rfl := Option.some.inj hb
      refine Read.lengthPrefixed_run hframed (by unfold maxCiphertext; omega) ?_ rest
      rw [object.bytes_length]
      omega
  unfold Read.last
  simp only [List.append_assoc, List.cons_append, List.nil_append]
  rw [Cursor.run_bind_ok (Read.side_run _ _), Cursor.run_bind_ok (Read.byte_run _ _), hnumber,
    Cursor.run_bind_ok (Read.verdict_run (Kind.fromNumber_number last.kind) _),
    Cursor.run_bind_ok (Read.array_run _ _), Cursor.run_bind_ok (Read.array_run _ _),
    Cursor.run_bind_ok hoption]
  obtain ⟨sender, bytes', kind, intentDigest, contentHash⟩ := last
  cases bytes' with
  | none => rfl
  | some value =>
    dsimp only
    rw [Cursor.run_bind_ok (Read.verdict_run (Read.retained_ok h rfl) rest)]
    rfl

namespace Endpoint

variable {V : Type}

/-- What every reachable endpoint keeps: the recorded projection agrees with the
phase, the intent and the latest object. -/
structure Sound (e : Endpoint V) : Prop where
  projection : e.phase ≠ .terminal → consistentProjection e.phase e.intentDigest e.last = true
  intent : ∀ last ∈ e.last, last.kind ≠ .accountSelect → e.intentDigest = some last.intentDigest
  faithful : ∀ last ∈ e.last, last.Faithful

theorem sound_new (side : Side) (carrier : Carrier) (bodyVerifier : V) :
    (new side carrier bodyVerifier).Sound where
  projection _ := rfl
  intent := by simp [new]
  faithful := by simp [new]

/-- Where a checkpoint may be sealed at all, the projection is consistent. -/
theorem Sound.consistent {e : Endpoint V} (h : e.Sound)
    (hphase : e.phase = .terminal → e.receiptReleased = true) :
    consistentProjection e.phase e.intentDigest e.last = true := by
  by_cases hterminal : e.phase = .terminal
  · have hreceipt := hphase hterminal
    simp only [receiptReleased, Bool.and_eq_true, beq_iff_eq, Option.any_eq_true] at hreceipt
    obtain ⟨-, last, hlast, hsender, hkind⟩ := hreceipt
    have hintent := h.intent last hlast (by rw [hkind]; decide)
    rw [hterminal, hintent, hlast]
    simp [consistentProjection, hsender, hkind]
  · exact h.projection hterminal

theorem faithful_accept (object : Object) (sender : Side) (next : Phase) (e : Endpoint V) :
    ∀ last ∈ (e.accept object sender next).last, last.Faithful := by
  rintro last hlast bytes hbytes
  obtain rfl := Option.some.inj hlast
  obtain rfl := Option.some.inj hbytes
  exact ⟨object, rfl, rfl, rfl, rfl⟩

/-- The consistency of a step of the reducer. -/
theorem consistentProjection_next {phase next : Phase} {kind : Kind} {intent : Octets 32}
    {last : LastObject} (h : nextPhase phase kind = some next) (hopen : next ≠ .terminal)
    (hkind : last.kind = kind) (hintent : last.intentDigest = intent) :
    consistentProjection next (some intent) (some last) = true := by
  cases phase <;> cases kind <;> simp [nextPhase] at h <;> subst h <;>
    first
    | exact absurd rfl hopen
    | simp [consistentProjection, hkind, hintent]

theorem Sound.accepts {e e' : Endpoint V} {object : Object} {sender : Side} (h : e.Sound)
    (haccept : Accepts object sender e e') : e'.Sound := by
  cases haccept with
  | accountSelect hkind hdigest hsender hphase hnone =>
    have hunbound : e.intentDigest = none := by
      have := h.projection (by rw [hphase]; decide)
      rw [hphase, hnone] at this
      cases hintent : e.intentDigest with
      | none => rfl
      | some intent => simp [hintent, consistentProjection] at this
    refine ⟨fun _ => ?_, ?_, faithful_accept object sender _ _⟩
    · simp [accept, hkind, hdigest, hsender, hunbound, consistentProjection]
    · rintro last hlast hnot
      obtain rfl := Option.some.inj hlast
      exact absurd hkind hnot
  | sentOffer hkind =>
    refine ⟨fun _ => ?_, ?_, faithful_accept object sender _ _⟩
    · simp [accept, hkind, consistentProjection]
    · rintro last hlast -
      obtain rfl := Option.some.inj hlast
      rfl
  | receivedOffer hkind _ _ hpre =>
    have hunbound : e.intentDigest = none := by
      have := h.projection (by intro hterminal; simp [hterminal, preOffer] at hpre)
      cases hphase : e.phase <;> simp [hphase, preOffer] at hpre <;>
        cases hintent : e.intentDigest <;> simp [hphase, hintent, consistentProjection] at this ⊢
    refine ⟨fun _ => ?_, ?_, faithful_accept object sender _ _⟩
    · simp [accept, hkind, hunbound, consistentProjection]
    · rintro last hlast -
      obtain rfl := Option.some.inj hlast
      simp [accept, hkind, hunbound]
  | successor v next hsender hsucceeds =>
    have hintent := hsucceeds.intent
    have hkept : ({ e with bodyVerifier := v }.accept object sender next).intentDigest =
        some object.intentDigest := by
      simp [accept, hintent]
    refine ⟨fun hopen => ?_, ?_, faithful_accept object sender _ _⟩
    · rw [hkept]
      exact consistentProjection_next hsucceeds.step hopen rfl rfl
    · rintro last hlast -
      obtain rfl := Option.some.inj hlast
      exact hkept

theorem Sound.refused {e e' : Endpoint V} (h : e.Sound) (hrefused : Refused e e') : e'.Sound := by
  obtain ⟨v, rfl | rfl⟩ := hrefused
  · exact ⟨h.projection, h.intent, h.faithful⟩
  · exact ⟨fun hopen => absurd rfl hopen, h.intent, h.faithful⟩

end Endpoint

namespace Established

variable {V : Type}

/-- What every state of a session that may still seal keeps. -/
structure Coherent (s : Established V) : Prop where
  side_eq : s.channel.localSide = s.endpoint.side
  live : s.channel.terminal = false
  awaiting : s.relay.awaitingAck = s.relay.cachedOutbound.isSome
  sealed_ : s.relay.cachedOutbound.all Frame.isSealed = true
  sound : s.endpoint.Sound

/-- Bytes are gone that no cached frame stands for. -/
def incomplete (s : Established V) : Bool :=
  s.endpoint.last.any (missingBytes s.endpoint.side s.relay)

/-- Only an own object whose frame is cached may have lost its bytes. -/
def Complete (s : Established V) : Prop := s.incomplete = false

theorem complete_iff {s : Established V} : s.Complete ↔
    ∀ last ∈ s.endpoint.last, missingBytes s.endpoint.side s.relay last = false := by
  unfold Complete incomplete
  cases s.endpoint.last <;> simp

/-- The state a checkpoint gives back: the own bytes it left out are missing and
the verifier is the restored one. -/
def recovered (s : Established V) (bodyVerifier : V) : Established V :=
  { s with
    endpoint := { s.endpoint with
      last := s.endpoint.last.map fun last =>
        { last with bytes := lastBytes s.endpoint.side s.relay last }
      bodyVerifier } }

omit [Primitives] in
theorem missingBytes_lastBytes (side : Side) (relay : RelayState) (last : LastObject) :
    missingBytes side relay { last with bytes := lastBytes side relay last } =
      missingBytes side relay last := by
  unfold missingBytes lastBytes
  cases hown : last.sender == side && relay.cachedOutbound.isSome <;> simp

theorem consistentProjection_bytes (phase : Phase) (intent : Option (Octets 32))
    (last : Option LastObject) (f : LastObject → Option Bytes) :
    consistentProjection phase intent (last.map fun last => { last with bytes := f last }) =
      consistentProjection phase intent last := by
  cases phase <;> cases intent <;> cases last <;> rfl

variable [BodyVerifier V]

theorem appendLast_run {side : Side} {relay : RelayState} {last : Option LastObject}
    {bytes : Bytes} (h : appendLast side relay last = .ok bytes)
    (hfaithful : ∀ x ∈ last, x.Faithful) (rest : Bytes) :
    Read.option Read.last (bytes ++ rest) =
      .ok (last.map fun x => { x with bytes := lastBytes side relay x }, rest) := by
  cases last with
  | none =>
    obtain rfl := Except.ok.inj h
    rfl
  | some last =>
    simp only [appendLast, Calls.except_bind_eq_ok, Except.ok.injEq] at h
    obtain ⟨kept, hkept, rfl⟩ := h
    have hread := Read.last_run ((hfaithful last rfl).filter _) hkept rest
    refine Read.option_run (fun _ => [sideOctet last.sender,
      UInt8.ofNat last.kind.number] ++ last.intentDigest.val ++ last.contentHash.val ++ kept)
      (some { last with bytes := lastBytes side relay last }) ?_ rest
    rintro x hx rest
    obtain rfl := Option.some.inj hx
    exact Read.last_run ((hfaithful last rfl).filter _) hkept rest

/-- What the inner encoder writes, the inner decoder reads back, unless the
verifier refuses its state or bytes are missing. -/
theorem decodeInner_encodeInner {s : Established V} {generation : UInt64} {nonce : Octets 12}
    {plaintext : Bytes} (h : encodeInner s generation nonce = .ok plaintext)
    (hlen : plaintext.length ≤ maxInner) (hcoherent : s.Coherent)
    (hphase : s.endpoint.phase = .terminal → s.endpoint.receiptReleased = true) (v : V) :
    ∃ state, BodyVerifier.checkpointState s.endpoint.bodyVerifier = .ok state ∧
      decodeInner s.endpoint.side s.endpoint.carrier generation nonce v plaintext =
        (restoreVerifier v state >>= fun v' => if s.incomplete then .error .schema else
          .ok ({ s.recovered v' with endpoint := { (s.recovered v').endpoint with
            checkpointGeneration := generation, checkpointNonce := some nonce } }, [])) := by
  simp only [encodeInner, Calls.except_bind_eq_ok, Except.ok.injEq] at h
  obtain ⟨carrier, hcarrier, last, hlast, state, hstate, verifierBytes, hverifierBytes, relay,
    hrelay, rfl⟩ := h
  refine ⟨state, hstate, ?_⟩
  simp only [List.length_append, List.length_cons, List.length_nil] at hlen
  have hstateLength : state.length ≤ maxInner := by
    obtain ⟨-, rfl⟩ := appendBytes_eq_ok.mp hverifierBytes
    simp only [List.length_append] at hlen
    omega
  have hrelayLength : relay.length ≤ maxCiphertext := by
    unfold maxInner at hlen
    omega
  have hcarrierLength : (encodeCarrier s.endpoint.carrier).length ≤ maxInner := by
    have := Carrier.encodeCarrier_length_le s.endpoint.carrier
    unfold maxInner maxCiphertext
    omega
  have hdigest : ∀ rest, Read.option (Read.array 32)
      (optional Subtype.val s.endpoint.intentDigest ++ rest) = .ok (s.endpoint.intentDigest, rest) :=
    fun rest => Read.option_run _ _ (fun x _ rest => Read.array_run x rest) rest
  have hrelayRun := Read.relay_run hrelay hcoherent.awaiting hcoherent.sealed_ hrelayLength []
  rw [List.append_nil] at hrelayRun
  unfold decodeInner
  simp only [List.append_assoc, List.cons_append, List.nil_append]
  rw [Cursor.run_bind_ok (Cursor.take_append rfl), if_neg (by simp),
    Cursor.run_bind_ok (Read.side_run _ _),
    Cursor.run_bind_ok (Read.lengthPrefixed_run hcarrier hcarrierLength
      (Carrier.encodeCarrier_pos _) _),
    Cursor.run_bind_ok (Read.verdict_run (Carrier.decodeCarrier_encodeCarrier _) _), if_neg (by simp),
    Cursor.run_bind_ok (Read.byte_run _ _),
    Cursor.run_bind_ok (Read.verdict_run (numberPhase_phaseOctet _) _),
    Cursor.run_bind_ok (hdigest _),
    Cursor.run_bind_ok (appendLast_run hlast hcoherent.sound.faithful _),
    Cursor.run_bind_ok (Read.lengthPrefixedAllowEmpty_run hverifierBytes hstateLength _)]
  cases hverifier : restoreVerifier v state with
  | error e => exact Cursor.run_bind_error rfl
  | ok v' =>
  rw [Cursor.run_bind_ok (Read.verdict_run rfl _), Cursor.run_bind_ok (Read.u64_run _ _),
    Cursor.run_bind_ok (Read.array_run _ _), Cursor.run_bind_ok (Read.channel_run _ _),
    Cursor.run_bind_ok hrelayRun]
  have hmissing : ((s.endpoint.last.map fun x =>
      { x with bytes := lastBytes s.endpoint.side s.relay x }).any
      (missingBytes s.endpoint.side s.relay)) = s.incomplete := by
    rw [Option.any_map, Established.incomplete]
    cases s.endpoint.last with
    | none => rfl
    | some x => exact missingBytes_lastBytes _ _ x
  have hprojection := (consistentProjection_bytes s.endpoint.phase s.endpoint.intentDigest
    s.endpoint.last (lastBytes s.endpoint.side s.relay)).trans
    (hcoherent.sound.consistent hphase)
  have hfinished : Read.finished ([] : Bytes) = .ok (true, []) := rfl
  rw [Cursor.run_bind_ok hfinished]
  cases hincomplete : s.incomplete with
  | true =>
    rw [if_pos (by simp [hmissing, hincomplete])]
    rfl
  | false =>
    rw [if_neg (by
      simp only [hmissing, hincomplete, hprojection, hcoherent.side_eq, hcoherent.live]
      simp)]
    rfl

end Established

/-! ### Sealing and restoring -/

/-- The endpoint after a successful seal. -/
def Endpoint.stamped {V : Type} (e : Endpoint V) (generation : UInt64) (nonce : Octets 12) :
    Endpoint V :=
  { e with checkpointGeneration := generation, checkpointNonce := some nonce }

omit [Primitives] in
theorem validateExpiry_eq_ok {expiry : Option UInt64} {carrierExpiry now : UInt64} :
    validateExpiry expiry carrierExpiry now = .ok () ↔
      expiry = some carrierExpiry ∧ now < carrierExpiry := by
  unfold validateExpiry
  cases expiry with
  | none => simp
  | some value =>
    dsimp only
    split_ifs with hvalue hpassed
    · exact iff_of_true rfl ⟨by rw [hvalue.1], hvalue.1 ▸ hvalue.2⟩
    · refine iff_of_false (by simp) ?_
      rintro ⟨heq, hlt⟩
      exact absurd hlt (UInt64.not_lt.mpr hpassed)
    · refine iff_of_false (by simp) ?_
      rintro ⟨heq, hlt⟩
      obtain rfl := Option.some.inj heq
      exact hvalue ⟨rfl, hlt⟩

omit [Primitives] in
theorem validateCheckpointPhase_ok {side : Side} {phase : Phase} {receiptReleased : Bool}
    {expiry : Option UInt64} {carrierExpiry now : UInt64}
    (h : validateCheckpointPhase side phase receiptReleased expiry carrierExpiry now = .ok ()) :
    (phase = .terminal → side = .allocator ∧ receiptReleased = true) ∧
      (side = .allocator → expiry = some carrierExpiry ∧ now < carrierExpiry) ∧
      (side = .claimant → (phase = .payloadSent ∧ expiry = none) ∨
        (phase = .finalApproved ∧ expiry = some carrierExpiry ∧ now < carrierExpiry)) := by
  unfold validateCheckpointPhase at h
  by_cases hterminal : phase = .terminal ∧ !(side == .allocator && receiptReleased)
  · rw [if_pos hterminal] at h
    simp at h
  rw [if_neg hterminal] at h
  refine ⟨?_, ?_, ?_⟩
  · rintro rfl
    simpa using hterminal
  · rintro rfl
    exact validateExpiry_eq_ok.mp h
  · rintro rfl
    dsimp only at h
    split_ifs at h with hpayload hnone hfinal
    · exact .inl ⟨hpayload, by simpa using hnone⟩
    · exact .inr ⟨hfinal, validateExpiry_eq_ok.mp h⟩

omit [Primitives] in
/-- The phase check at another time before the same expiry. -/
theorem validateCheckpointPhase_later {side : Side} {phase : Phase} {receiptReleased : Bool}
    {expiry : Option UInt64} {carrierExpiry now later : UInt64}
    (h : validateCheckpointPhase side phase receiptReleased expiry carrierExpiry now = .ok ())
    (hlater : ∀ value ∈ expiry, later < value) :
    validateCheckpointPhase side phase receiptReleased expiry carrierExpiry later = .ok () := by
  obtain ⟨hterminal, hallocator, hclaimant⟩ := validateCheckpointPhase_ok h
  unfold validateCheckpointPhase
  rw [if_neg (by
    rintro ⟨hphase, hnot⟩
    simp [hterminal hphase] at hnot)]
  cases side with
  | allocator =>
    obtain ⟨rfl, -⟩ := hallocator rfl
    exact validateExpiry_eq_ok.mpr ⟨rfl, hlater carrierExpiry rfl⟩
  | claimant =>
    obtain ⟨rfl, rfl⟩ | ⟨rfl, rfl, -⟩ := hclaimant rfl
    · rfl
    · exact validateExpiry_eq_ok.mpr ⟨rfl, hlater carrierExpiry rfl⟩

namespace Endpoint

variable {V : Type} [BodyVerifier V]

theorem sealCheckpoint_eq_ok {channel : SecureChannel} {relay : RelayState}
    {wrappingKey : Octets 32} {generation now : UInt64} {expiry : Option UInt64}
    {nonce : Octets 12} {e e' : Endpoint V} {checkpoint : Bytes} :
    sealCheckpoint channel relay wrappingKey generation expiry nonce now e = .ok checkpoint e' ↔
      channel.localSide = e.side ∧
      validateCheckpointPhase e.side e.phase e.receiptReleased expiry e.carrier.relayExpiresAt
        now = .ok () ∧
      (generation ≠ 0 ∧ generation = saturatingSucc e.checkpointGeneration ∧
        e.checkpointNonce ≠ some nonce) ∧
      (∃ plaintext, encodeInner ⟨e, channel, relay⟩ generation nonce = .ok plaintext ∧
        sealCheckpointPlaintext plaintext e.side e.carrier wrappingKey generation expiry nonce =
          .ok checkpoint) ∧
      e' = e.stamped generation nonce := by
  unfold sealCheckpoint
  rw [Call.run_bind (Call.run_get e)]
  by_cases hside : channel.localSide = e.side
  swap
  · simp [hside]
  rw [if_neg (by simpa using hside)]
  simp only [Call.bind_eq_ok, Call.ofExcept_eq_ok]
  constructor
  · rintro ⟨_, _, ⟨hphase, rfl⟩, h⟩
    split_ifs at h with hcounter
    · simp at h
    · simp only [Call.bind_eq_ok, Call.ofExcept_eq_ok, Call.set_eq_ok, Call.pure_eq_ok] at h
      obtain ⟨plaintext, _, ⟨hencode, rfl⟩, _, _, ⟨hseal, rfl⟩, _, _, rfl, rfl, rfl⟩ := h
      simp only [not_or, ne_eq, not_not] at hcounter
      exact ⟨hside, hphase, hcounter, ⟨plaintext, hencode, hseal⟩, rfl⟩
  · rintro ⟨-, hphase, hcounter, ⟨plaintext, hencode, hseal⟩, rfl⟩
    refine ⟨(), e, ⟨hphase, rfl⟩, ?_⟩
    rw [if_neg (by simpa using hcounter)]
    simp only [Call.bind_eq_ok, Call.ofExcept_eq_ok, Call.set_eq_ok, Call.pure_eq_ok]
    exact ⟨plaintext, e, ⟨hencode, rfl⟩, checkpoint, e, ⟨hseal, rfl⟩, ⟨⟩, _, rfl, rfl, rfl⟩

/-- A failed seal changes nothing. -/
theorem sealCheckpoint_error {channel : SecureChannel} {relay : RelayState}
    {wrappingKey : Octets 32} {generation now : UInt64} {expiry : Option UInt64}
    {nonce : Octets 12} {e e' : Endpoint V} {error : Error}
    (h : sealCheckpoint channel relay wrappingKey generation expiry nonce now e = .error error e') :
    e' = e := by
  unfold sealCheckpoint at h
  rw [Call.run_bind (Call.run_get e)] at h
  by_cases hside : channel.localSide = e.side
  swap
  · rw [if_pos hside] at h
    exact (Call.throw_eq_error.mp h).2.symm
  rw [if_neg (by simpa using hside)] at h
  simp only [Call.bind_eq_error, Call.ofExcept_eq_error, Call.ofExcept_eq_ok] at h
  obtain ⟨-, rfl⟩ | ⟨_, _, ⟨-, rfl⟩, h⟩ := h
  · rfl
  split_ifs at h
  · exact (Call.throw_eq_error.mp h).2.symm
  · simp only [Call.bind_eq_error, Call.ofExcept_eq_error, Call.ofExcept_eq_ok,
      Call.set_eq_error, Call.set_eq_ok, Call.pure_eq_error, and_false, exists_false,
      or_false] at h
    obtain ⟨-, rfl⟩ | ⟨_, _, ⟨-, rfl⟩, ⟨-, rfl⟩⟩ := h
    · rfl
    · rfl

/-- The verifier accepts back what it gave out. -/
def VerifierRestores (V : Type) [BodyVerifier V] : Prop :=
  ∀ (v fresh : V) (state : Bytes), BodyVerifier.checkpointState v = .ok state →
    ∃ v', restoreVerifier fresh state = .ok v'

/-- Restoring a sealed endpoint under its own bindings before its expiry: the
verifier and the recorded bytes decide, and the rest comes back field by field,
without the own bytes its cached frame stands for. -/
theorem restoreCheckpoint_sealed {channel : SecureChannel} {relay : RelayState}
    {wrappingKey : Octets 32} {generation now later : UInt64} {expiry : Option UInt64}
    {nonce : Octets 12} {e e' : Endpoint V} {checkpoint : Bytes}
    (h : sealCheckpoint channel relay wrappingKey generation expiry nonce now e = .ok checkpoint e')
    (hcoherent : (⟨e, channel, relay⟩ : Established V).Coherent)
    (hlater : ∀ value ∈ expiry, later < value) (fresh : V) :
    ∃ state, BodyVerifier.checkpointState e.bodyVerifier = .ok state ∧
      restoreCheckpoint checkpoint wrappingKey e.side e.carrier generation later fresh =
        (restoreVerifier fresh state >>= fun v' =>
          if (⟨e, channel, relay⟩ : Established V).incomplete then .error .schema
          else .ok ((⟨e', channel, relay⟩ : Established V).recovered v')) := by
  obtain ⟨-, hphase, ⟨hgeneration, -, -⟩, ⟨plaintext, hencode, hseal⟩, rfl⟩ :=
    sealCheckpoint_eq_ok.mp h
  have hlen : plaintext.length ≤ maxInner := by
    unfold sealCheckpointPlaintext at hseal
    split_ifs at hseal with hsize
    simp only [not_or, not_lt] at hsize
    exact hsize.2
  obtain ⟨hterminal, -, -⟩ := validateCheckpointPhase_ok hphase
  obtain ⟨state, hstate, hdecode⟩ := Established.decodeInner_encodeInner hencode hlen
    hcoherent (fun hp => (hterminal hp).2) fresh
  refine ⟨state, hstate, ?_⟩
  unfold restoreCheckpoint
  rw [openCheckpointPlaintext_seal hseal hgeneration hlater, Calls.ok_bind]
  dsimp only at hdecode ⊢
  rw [hdecode]
  cases restoreVerifier fresh state with
  | error e => rfl
  | ok v' =>
    rw [Calls.ok_bind, Calls.ok_bind]
    by_cases hincomplete : (⟨e, channel, relay⟩ : Established V).incomplete = true
    · rw [if_pos hincomplete, if_pos hincomplete, Calls.error_bind]
    rw [if_neg hincomplete, if_neg hincomplete]
    -- the omitted bytes leave the receipt and the phase check as they were
    have hreceipt : (((⟨e.stamped generation nonce, channel, relay⟩ :
        Established V).recovered v').endpoint).receiptReleased = e.receiptReleased := by
      unfold receiptReleased Established.recovered stamped
      cases e.last <;> rfl
    have hlive := validateCheckpointPhase_later hphase hlater
    rw [← hreceipt] at hlive
    exact (congrArg (· >>= fun _ => Except.ok _) hlive)

theorem restoreCheckpoint_sealCheckpoint {channel : SecureChannel} {relay : RelayState}
    {wrappingKey : Octets 32} {generation now later : UInt64} {expiry : Option UInt64}
    {nonce : Octets 12} {e e' : Endpoint V} {checkpoint : Bytes}
    (h : sealCheckpoint channel relay wrappingKey generation expiry nonce now e = .ok checkpoint e')
    (hcoherent : (⟨e, channel, relay⟩ : Established V).Coherent)
    (hcomplete : (⟨e, channel, relay⟩ : Established V).Complete)
    (hrestores : VerifierRestores V) (hlater : ∀ value ∈ expiry, later < value) (fresh : V) :
    ∃ v', restoreCheckpoint checkpoint wrappingKey e.side e.carrier generation later fresh =
      .ok ((⟨e', channel, relay⟩ : Established V).recovered v') := by
  obtain ⟨state, hstate, hrestore⟩ := restoreCheckpoint_sealed h hcoherent hlater fresh
  obtain ⟨v', hv'⟩ := hrestores e.bodyVerifier fresh state hstate
  refine ⟨v', ?_⟩
  rw [hrestore, hv', Calls.ok_bind, if_neg (Bool.eq_false_iff.mp hcomplete)]

/-- Whatever is restored from a sealed endpoint is that endpoint, and no bytes
were missing. -/
theorem restoreCheckpoint_of_sealed {channel : SecureChannel} {relay : RelayState}
    {wrappingKey : Octets 32} {generation now later : UInt64} {expiry : Option UInt64}
    {nonce : Octets 12} {e e' : Endpoint V} {checkpoint : Bytes} {fresh : V} {s : Established V}
    (h : sealCheckpoint channel relay wrappingKey generation expiry nonce now e = .ok checkpoint e')
    (hcoherent : (⟨e, channel, relay⟩ : Established V).Coherent)
    (hrestore : restoreCheckpoint checkpoint wrappingKey e.side e.carrier generation later fresh =
      .ok s) :
    (⟨e, channel, relay⟩ : Established V).Complete ∧
      ∃ v', s = (⟨e', channel, relay⟩ : Established V).recovered v' := by
  obtain ⟨-, -, ⟨hgeneration, -, -⟩, ⟨plaintext, -, hseal⟩, -⟩ := sealCheckpoint_eq_ok.mp h
  have hlater : ∀ value ∈ expiry, later < value := by
    simp only [restoreCheckpoint, Calls.except_bind_eq_ok] at hrestore
    obtain ⟨opened, hopened, -⟩ := hrestore
    exact openCheckpointPlaintext_live hseal hgeneration hopened
  obtain ⟨state, -, hsealed⟩ := restoreCheckpoint_sealed h hcoherent hlater fresh
  rw [hsealed] at hrestore
  simp only [Calls.except_bind_eq_ok, Calls.guard_eq_ok, Except.ok.injEq,
    Bool.not_eq_true] at hrestore
  obtain ⟨v', -, hcomplete, rfl⟩ := hrestore
  exact ⟨hcomplete, v', rfl⟩

end Endpoint

end CredentialV2
end CbclPairing
