import CbclPairing.Codec.Base64
import CbclPairing.CredentialV2.Allocator

/-! The texts that hand an invitation over: the presence code, the confidential
handoff and the manual bootstrap with its three words. -/
namespace CbclPairing
namespace CredentialV2
open Codec Codec.Cbor Calls

variable [Primitives]

/-! ### The presence code -/

structure PresenceCode where
  cpaceSecret : Octets 16
  claimToken : Octets 16
  deriving DecidableEq

namespace PresenceCode

def domain : Bytes := ascii "selfsame credential/v2 presence code" ++ [0]
def alphabet : Bytes := ascii "0123456789ABCDEFGHJKMNPQRSTVWXYZ"
def groups : ℕ := 11
def groupOctets : ℕ := 5
def dataBits : ℕ := 272

/-- Both secrets with two octets of checksum. -/
def payload (code : PresenceCode) : Bytes :=
  code.cpaceSecret.val ++ code.claimToken.val ++
    (sha256 (domain ++ code.cpaceSecret.val ++ code.claimToken.val)).val.take 2

/-- Bits past the payload are zero. -/
def bit (payload : Bytes) (position : ℕ) : UInt8 :=
  if position < dataBits then
    (payload.getD (position / 8) 0 >>> UInt8.ofNat (7 - position % 8)) &&& 1
  else 0

/-- Five bits of the payload, most significant first. -/
def symbol (payload : Bytes) (index : ℕ) : UInt8 :=
  (List.range 5).foldl (fun value offset => value <<< 1 ||| bit payload (index * 5 + offset)) 0

def group (payload : Bytes) (index : ℕ) : Bytes :=
  (List.range groupOctets).map fun offset =>
    alphabet.getD (symbol payload (index * groupOctets + offset)).toNat 0

def display (code : PresenceCode) : Bytes :=
  ascii "PAIR1" ++ (List.range groups).flatMap fun index => ascii "-" ++ group code.payload index

end PresenceCode

def Presence.displayCode (presence : Presence) : Option Bytes :=
  presence.claimToken.map fun claimToken => (PresenceCode.mk presence.cpaceSecret claimToken).display

/-! ### The handoff -/

inductive HandoffError where
  | version
  | oversize
  | encoding
  | schema
  | carrier
  | commitment
  deriving DecidableEq, Repr

def maxCarrier : ℕ := 2695

/-- A short byte string; every caller stays below 65536 octets. -/
def appendBstr (bytes : Bytes) : Bytes :=
  if bytes.length ≤ 23 then (0x40 ||| UInt8.ofNat bytes.length) :: bytes
  else if bytes.length ≤ 255 then 0x58 :: UInt8.ofNat bytes.length :: bytes
  else 0x59 :: beBytes 2 bytes.length ++ bytes

omit [Primitives] in
theorem appendBstr_length_le (bytes : Bytes) :
    (appendBstr bytes).length ≤ bytes.length + 3 ∧
      (bytes.length ≤ 23 → (appendBstr bytes).length = bytes.length + 1) := by
  unfold appendBstr
  split_ifs with hshort hmedium
  · simp
  · refine ⟨by simp, fun h => absurd h hshort⟩
  · refine ⟨?_, fun h => absurd h hshort⟩
    simp only [List.cons_append, List.length_cons, List.length_append, beBytes_length]
    omega

omit [Primitives] in
theorem appendBstr_secret_length (secret : Octets 16) : (appendBstr secret.val).length = 17 := by
  have h := (appendBstr_length_le secret.val).2 (by simp)
  rwa [Octets.length_val] at h

structure Handoff where
  carrier : Carrier
  presence : PresenceCode

namespace Handoff

def textPrefix : Bytes := ascii "SSPAIR1:"
def domain : Bytes := ascii "selfsame-pairing-handoff/v1"
def maxDecoded : ℕ := 2762
def maxText : ℕ := 3691

/-- The claim token opens the commitment of the carrier. -/
def new (carrier : Carrier) (presence : PresenceCode) : Except HandoffError Handoff :=
  if claimCommitment carrier.mailboxId presence.claimToken ≠ carrier.claimCommitment then
    .error .commitment
  else .ok { carrier, presence }

def decoded (handoff : Handoff) : Bytes :=
  [0x84, 0x78, 27] ++ domain ++ appendBstr (encodeCarrier handoff.carrier) ++
    appendBstr handoff.presence.cpaceSecret.val ++ appendBstr handoff.presence.claimToken.val

def encode (handoff : Handoff) : Except HandoffError Bytes :=
  if maxCarrier < (encodeCarrier handoff.carrier).length then .error .oversize
  else
    match base64UrlInto (maxText - textPrefix.length) handoff.decoded with
    | some suffix => .ok (textPrefix ++ suffix)
    | none => .error .oversize

theorem decoded_length_le (handoff : Handoff) : handoff.decoded.length ≤ maxDecoded := by
  have hcarrier : (encodeCarrier handoff.carrier).length ≤ 2695 :=
    Carrier.encodeCarrier_length_le handoff.carrier
  have hpublic := (appendBstr_length_le (encodeCarrier handoff.carrier)).1
  have hdomain : domain.length = 27 := by decide
  simp only [decoded, List.length_append, List.length_cons, List.length_nil,
    appendBstr_secret_length, hdomain, maxDecoded]
  omega

/-- The bounds leave enough space for every carrier. -/
theorem encode_eq (handoff : Handoff) :
    handoff.encode = .ok (textPrefix ++ base64Url handoff.decoded) := by
  have hcarrier : (encodeCarrier handoff.carrier).length ≤ maxCarrier :=
    Carrier.encodeCarrier_length_le handoff.carrier
  have hdecoded : handoff.decoded.length ≤ 2762 := handoff.decoded_length_le
  have hheader : textPrefix.length = 8 := by decide
  unfold encode
  rw [if_neg (not_lt.mpr hcarrier), base64UrlInto_eq_some]
  rw [hheader, maxText]
  omega

end Handoff

/-! ### The manual bootstrap -/

inductive ManualError where
  | version
  | oversize
  | encoding
  | schema
  | carrier
  | commitment
  | expired
  | allocatorKeyRequired
  | checksum
  deriving DecidableEq, Repr

structure ManualBootstrap where
  carrier : Carrier
  claimToken : ClaimToken

namespace ManualBootstrap

def textPrefix : Bytes := ascii "SSPAIR-M1:"
def domain : Bytes := ascii "selfsame-pairing-manual/v1"
def maxDecoded : ℕ := 2744
def maxText : ℕ := 3669

def new (carrier : Carrier) (claimToken : ClaimToken) (now : UInt64) :
    Except ManualError ManualBootstrap :=
  if claimCommitment carrier.mailboxId claimToken ≠ carrier.claimCommitment then .error .commitment
  else if carrier.expectedAllocatorKey.isNone then .error .allocatorKeyRequired
  else if carrier.relayExpiresAt ≤ now then .error .expired
  else .ok { carrier, claimToken }

def decoded (b : ManualBootstrap) : Bytes :=
  [0x83, 0x78, 26] ++ domain ++ appendBstr (encodeCarrier b.carrier) ++ appendBstr b.claimToken.val

def encode (b : ManualBootstrap) : Except ManualError Bytes :=
  if maxCarrier < (encodeCarrier b.carrier).length then .error .oversize
  else
    match base64UrlInto (maxText - textPrefix.length) b.decoded with
    | some suffix => .ok (textPrefix ++ suffix)
    | none => .error .oversize

theorem decoded_length_le (b : ManualBootstrap) : b.decoded.length ≤ maxDecoded := by
  have hcarrier : (encodeCarrier b.carrier).length ≤ 2695 :=
    Carrier.encodeCarrier_length_le b.carrier
  have hpublic := (appendBstr_length_le (encodeCarrier b.carrier)).1
  have hdomain : domain.length = 26 := by decide
  simp only [decoded, List.length_append, List.length_cons, List.length_nil,
    appendBstr_secret_length, hdomain, maxDecoded]
  omega

theorem encode_eq (b : ManualBootstrap) : b.encode = .ok (textPrefix ++ base64Url b.decoded) := by
  have hcarrier : (encodeCarrier b.carrier).length ≤ maxCarrier :=
    Carrier.encodeCarrier_length_le b.carrier
  have hdecoded : b.decoded.length ≤ 2744 := b.decoded_length_le
  have hheader : textPrefix.length = 10 := by decide
  unfold encode
  rw [if_neg (not_lt.mpr hcarrier), base64UrlInto_eq_some]
  rw [hheader, maxText]
  omega

end ManualBootstrap

/-- A secret that three words name. -/
abbrev ManualWords := {secret : Octets 16 // manualSecret secret = true}

namespace ManualWords

def domain : Bytes := ascii "selfsame-pairing-manual-words/v1" ++ [0]

def fromSecret (secret : Octets 16) : Except ManualError ManualWords :=
  if h : manualSecret secret = true then .ok ⟨secret, h⟩ else .error .schema

def checksum (n : ℕ) : ℕ := ((sha256 (domain ++ beBytes 4 n)).val.getD 0 0 >>> 5).toNat

/-- Thirty bits of secret and three of checksum, eleven bits a word of the list. -/
def encode (wordList : Fin 2048 → Bytes) (words : ManualWords) : Bytes :=
  let n := ofBe (words.val.val.drop 12)
  let bits := n <<< 3 ||| checksum n
  let word shift := wordList ⟨(bits >>> shift) % 2048, Nat.mod_lt _ (by decide)⟩
  word 22 ++ ascii " " ++ word 11 ++ ascii " " ++ word 0

end ManualWords

/-! ### What an allocator session exports -/

namespace Bootstrap

def presenceCode (b : Bootstrap) : Option Bytes :=
  if b.mode = .full then b.presence.displayCode else none

def handoff (b : Bootstrap) : Except Error (Option Handoff) :=
  if b.mode ≠ .full then .error .phase
  else
    match b.presence.claimToken with
    | some claimToken => do
      let handoff ← (Handoff.new b.carrier ⟨b.presence.cpaceSecret, claimToken⟩).mapError
        fun _ => Error.profile
      .ok (some handoff)
    | none => .ok none

def manualTransferText (wordList : Fin 2048 → Bytes) (b : Bootstrap) :
    Except Error (Option (Bytes × Bytes)) :=
  if b.mode ≠ .manual then .error .phase
  else
    match b.presence.claimToken with
    | some claimToken => do
      let bootstrap ← (ManualBootstrap.new b.carrier claimToken 0).mapError fun _ => Error.profile
      let words ← (ManualWords.fromSecret b.presence.cpaceSecret).mapError fun _ => Error.schema
      let text ← bootstrap.encode.mapError fun _ => Error.schema
      .ok (some (text, words.encode wordList))
    | none => .ok none

theorem presenceCode_isSome {b : Bootstrap} : b.presenceCode.isSome = true ↔
    b.mode = .full ∧ b.presence.claimToken.isSome = true := by
  unfold presenceCode Presence.displayCode
  split_ifs with hmode <;> simp [hmode]

theorem handoff_eq_some {b : Bootstrap} {handoff : Handoff} :
    b.handoff = .ok (some handoff) ↔ b.mode = .full ∧
      ∃ claimToken, b.presence.claimToken = some claimToken ∧
        Handoff.new b.carrier ⟨b.presence.cpaceSecret, claimToken⟩ = .ok handoff := by
  unfold Bootstrap.handoff
  rw [Calls.guard_eq_ok, not_not]
  refine and_congr_right fun _ => ?_
  cases b.presence.claimToken with
  | none => simp
  | some claimToken => simp

theorem manualTransferText_eq_some {wordList : Fin 2048 → Bytes} {b : Bootstrap}
    {text words : Bytes} : b.manualTransferText wordList = .ok (some (text, words)) ↔
      b.mode = .manual ∧ ∃ claimToken bootstrap named, b.presence.claimToken = some claimToken ∧
        ManualBootstrap.new b.carrier claimToken 0 = .ok bootstrap ∧
        ManualWords.fromSecret b.presence.cpaceSecret = .ok named ∧
        bootstrap.encode = .ok text ∧ words = named.encode wordList := by
  unfold manualTransferText
  rw [Calls.guard_eq_ok, not_not]
  refine and_congr_right fun _ => ?_
  cases b.presence.claimToken with
  | none => simp
  | some claimToken =>
    simp only [Calls.except_bind_eq_ok, mapError_eq_ok, Except.ok.injEq, Option.some.injEq,
      Prod.mk.injEq, exists_eq_left', exists_and_left]
    constructor
    · rintro ⟨bootstrap, hnew, named, hnamed, text, htext, rfl, rfl⟩
      exact ⟨bootstrap, hnew, named, hnamed, htext, rfl⟩
    · rintro ⟨bootstrap, hnew, named, hnamed, htext, rfl⟩
      exact ⟨bootstrap, hnew, named, hnamed, text, htext, rfl, rfl⟩

end Bootstrap

namespace AllocatorSession

variable {V : Type}

def presenceCode (s : AllocatorSession V) : Option Bytes :=
  match s.state with
  | .bootstrap b => b.presenceCode
  | _ => none

def handoffText (s : AllocatorSession V) : Except Error (Option Bytes) :=
  match s.state with
  | .bootstrap b => do
    match ← b.handoff with
    | some handoff => do
      let text ← handoff.encode.mapError fun _ => Error.schema
      .ok (some text)
    | none => .ok none
  | _ => .ok none

def manualTransferText (wordList : Fin 2048 → Bytes) (s : AllocatorSession V) :
    Except Error (Option (Bytes × Bytes)) :=
  match s.state with
  | .bootstrap b => b.manualTransferText wordList
  | _ => .ok none

/-! ### When an export yields text -/

theorem presenceCode_isSome {s : AllocatorSession V} : s.presenceCode.isSome = true ↔
    ∃ b, s.state = .bootstrap b ∧ b.mode = .full ∧ b.presence.claimToken.isSome = true := by
  unfold presenceCode
  cases s.state with
  | bootstrap b => simp [Bootstrap.presenceCode_isSome]
  | _ => simp

theorem handoffText_eq_some {s : AllocatorSession V} {text : Bytes} :
    s.handoffText = .ok (some text) ↔ ∃ b handoff, s.state = .bootstrap b ∧
      b.handoff = .ok (some handoff) ∧ handoff.encode = .ok text := by
  unfold handoffText
  cases s.state with
  | bootstrap b =>
    simp only [Calls.except_bind_eq_ok, AllocatorState.bootstrap.injEq, exists_and_left,
      exists_eq_left']
    constructor
    · rintro ⟨_ | handoff, hhandoff, h⟩
      · cases h
      · simp only [Calls.except_bind_eq_ok, mapError_eq_ok, Except.ok.injEq, Option.some.injEq] at h
        obtain ⟨_, hencode, rfl⟩ := h
        exact ⟨handoff, hhandoff, hencode⟩
    · rintro ⟨handoff, hhandoff, hencode⟩
      refine ⟨some handoff, hhandoff, ?_⟩
      simp only [hencode, Except.mapError, Calls.ok_bind]
  | _ => simp

theorem manualTransferText_eq_some {wordList : Fin 2048 → Bytes} {s : AllocatorSession V}
    {texts : Bytes × Bytes} : s.manualTransferText wordList = .ok (some texts) ↔
      ∃ b, s.state = .bootstrap b ∧ b.manualTransferText wordList = .ok (some texts) := by
  unfold manualTransferText
  cases s.state <;> simp

end AllocatorSession
end CredentialV2
end CbclPairing
