import CbclPairing.Cpace
import CbclPairing.CredentialV2.Carrier
import CbclPairing.CredentialV2.Relay

/-! The public context of one pairing and the channel its CPace run confirms. -/
namespace CbclPairing
namespace CredentialV2
open Codec Codec.Cbor Calls

variable [Primitives]

/-! ### Context -/

def roleName : Side → Bytes
  | .allocator => ascii "allocator"
  | .claimant => ascii "claimant"

def optionalBytes (value : Option (Octets 32)) : Value :=
  match value with
  | some key => .bytes key.val
  | none => .null

def associatedData (side : Side) (expectedKey : Option (Octets 32))
    (profileDigest carrierDigest : Octets 32) : Bytes :=
  toCanonicalVec (.array [.text (ascii "cbcl-pairing-ad/credential-v2"), .text (roleName side),
    optionalBytes expectedKey, .bytes profileDigest.val, .bytes carrierDigest.val])

/-- The CPace inputs and public context of one carrier under one profile. -/
structure Context where
  channelIdentifier : Bytes
  publicContext : Bytes
  sessionId : Octets 32
  allocatorData : Bytes
  claimantData : Bytes
  deriving DecidableEq

namespace Context

def derive (carrier : Carrier) (profileDigest : Octets 32) : Context where
  channelIdentifier := toCanonicalVec (.array [.text (ascii "cbcl-pairing-ci/credential-v2"),
    .integer 2, .text suiteId, .text profileName, .text carrier.applicationContext,
    .bytes profileDigest.val, .bytes carrier.digest.val, .text carrier.relayOrigin,
    .bytes carrier.mailboxId.val, .bytes carrier.carrierCeremonyId.val,
    .bytes carrier.claimCommitment.val,
    .array [.text (roleName .allocator), .text (roleName .claimant)]])
  publicContext := toCanonicalVec (.array
    [.text (ascii "cbcl-pairing-public-context/credential-v2"), .integer 2, .text suiteId,
    .text profileName, .text carrier.applicationContext, .bytes profileDigest.val,
    .bytes carrier.digest.val, .text carrier.relayOrigin, .bytes carrier.mailboxId.val,
    .bytes carrier.carrierCeremonyId.val, .bytes carrier.claimCommitment.val,
    optionalBytes carrier.expectedAllocatorKey, .null])
  sessionId := carrier.mailboxId
  allocatorData := CredentialV2.associatedData .allocator carrier.expectedAllocatorKey
    profileDigest carrier.digest
  claimantData := CredentialV2.associatedData .claimant none profileDigest carrier.digest

def associatedData (c : Context) : Side → Bytes
  | .allocator => c.allocatorData
  | .claimant => c.claimantData

def startCpace (c : Context) (side : Side) (presence : Presence) (freshScalar : Octets 32) :
    Except Error (Cpace.CpaceState × CpaceMessage) :=
  (Cpace.startBound side presence.cpaceSecret.val c.channelIdentifier c.sessionId.val
    (c.associatedData side) (c.associatedData side.opposite) freshScalar).mapError fun _ => .cpace

end Context

/-! ### Channel -/

def maxPlaintext : ℕ := 69556

structure PendingSecrets where
  keyAllocatorToClaimant : Octets 32
  keyClaimantToAllocator : Octets 32
  ivAllocatorToClaimant : Octets 12
  ivClaimantToAllocator : Octets 12
  exporter : Octets 32
  deriving DecidableEq

/-- A derived channel that still waits for the peer's Finished value. -/
structure PendingChannel where
  localSide : Side
  transcriptHash : Octets 64
  localFinished : Octets 64
  peerFinished : Octets 64
  secrets : PendingSecrets
  deriving DecidableEq

/-- A confirmed channel with exact counters in both directions. -/
structure SecureChannel where
  localSide : Side
  transcriptHash : Octets 64
  sendKey : Octets 32
  receiveKey : Octets 32
  sendIv : Octets 12
  receiveIv : Octets 12
  exporter : Octets 32
  nextSendCounter : Option UInt64
  nextReceiveCounter : Option UInt64
  terminal : Bool
  deriving DecidableEq

def transcriptHash (publicContext allocatorFrame claimantFrame : Bytes) : Octets 64 :=
  sha512 (toCanonicalVec (.array [.bytes publicContext, .bytes allocatorFrame,
    .bytes claimantFrame]))

def expand (isk : Octets 64) (label : String) (th : Octets 64) (length : ℕ) : Octets length :=
  hkdfSha512 [] isk.val (ascii label ++ th.val) length

def finishedMac (key : Octets 32) (label : String) (th : Octets 64) : Octets 64 :=
  hmacSha512 key.val (ascii label ++ th.val)

def allocatorFinished (isk : Octets 64) (th : Octets 64) : Octets 64 :=
  finishedMac (expand isk "pairing-credential-v2 kc A" th 32) "pairing-credential-v2 finished A" th

def claimantFinished (isk : Octets 64) (th : Octets 64) : Octets 64 :=
  finishedMac (expand isk "pairing-credential-v2 kc B" th 32) "pairing-credential-v2 finished B" th

namespace PendingChannel

def new (localSide : Side) (isk : Octets 64) (publicContext allocatorFrame claimantFrame : Bytes) :
    PendingChannel :=
  let th := CredentialV2.transcriptHash publicContext allocatorFrame claimantFrame
  { localSide
    transcriptHash := th
    localFinished :=
      match localSide with
      | .allocator => allocatorFinished isk th
      | .claimant => claimantFinished isk th
    peerFinished :=
      match localSide with
      | .allocator => claimantFinished isk th
      | .claimant => allocatorFinished isk th
    secrets :=
      { keyAllocatorToClaimant := expand isk "pairing-credential-v2 key A-B" th 32
        keyClaimantToAllocator := expand isk "pairing-credential-v2 key B-A" th 32
        ivAllocatorToClaimant := expand isk "pairing-credential-v2 iv A-B" th 12
        ivClaimantToAllocator := expand isk "pairing-credential-v2 iv B-A" th 12
        exporter := expand isk "pairing-credential-v2 exporter" th 32 } }

def localFinishedFrame (p : PendingChannel) : Frame := .finished p.localSide p.localFinished

def confirm (p : PendingChannel) (frame : Frame) : Except Error SecureChannel :=
  match frame.finishedValue with
  | none => .error .finished
  | some (peerSide, value) =>
    if peerSide = p.localSide ∨ p.peerFinished ≠ value then .error .finished
    else
      match p.localSide with
      | .allocator => .ok
        { localSide := p.localSide, transcriptHash := p.transcriptHash
          sendKey := p.secrets.keyAllocatorToClaimant
          receiveKey := p.secrets.keyClaimantToAllocator
          sendIv := p.secrets.ivAllocatorToClaimant
          receiveIv := p.secrets.ivClaimantToAllocator
          exporter := p.secrets.exporter
          nextSendCounter := some 0, nextReceiveCounter := some 0, terminal := false }
      | .claimant => .ok
        { localSide := p.localSide, transcriptHash := p.transcriptHash
          sendKey := p.secrets.keyClaimantToAllocator
          receiveKey := p.secrets.keyAllocatorToClaimant
          sendIv := p.secrets.ivClaimantToAllocator
          receiveIv := p.secrets.ivAllocatorToClaimant
          exporter := p.secrets.exporter
          nextSendCounter := some 0, nextReceiveCounter := some 0, terminal := false }

end PendingChannel

/-- The IV with the counter added in its last eight octets. -/
def deriveNonce (iv : Octets 12) (counter : UInt64) : Octets 12 :=
  ⟨iv.val.take 4 ++ List.zipWith (· ^^^ ·) (iv.val.drop 4) (beBytes 8 counter.toNat),
    length_counted iv counter⟩

def sealedAad (d : Direction) (counter : UInt64) (th : Octets 64) : Bytes :=
  toCanonicalVec (.map [(.text (ascii "v"), .integer 2),
    (.text (ascii "direction"), .integer (directionNumber d)),
    (.text (ascii "counter"), .integer counter.toNat),
    (.text (ascii "th"), .bytes th.val)])

def sendDirection : Side → Direction
  | .allocator => .allocatorToClaimant
  | .claimant => .claimantToAllocator

def receiveDirection : Side → Direction
  | .allocator => .claimantToAllocator
  | .claimant => .allocatorToClaimant

namespace SecureChannel

def canSeal (c : SecureChannel) (plaintext : Bytes) : Except Error Unit :=
  if c.terminal then .error .terminal
  else if plaintext = [] ∨ maxPlaintext < plaintext.length then .error .size
  else if c.nextSendCounter.isNone then .error .counter
  else .ok ()

/-- The ciphertext of a plaintext under the send key at one counter. -/
def ciphertext (c : SecureChannel) (counter : UInt64) (plaintext : Bytes) : Bytes :=
  aesGcmEncrypt c.sendKey (deriveNonce c.sendIv counter)
    (sealedAad (sendDirection c.localSide) counter c.transcriptHash) plaintext

/-- Seal one plaintext with the exact next counter. -/
def sealFrame (plaintext : Bytes) : Call Error SecureChannel Frame := do
  let c ← get
  Call.ofExcept (c.canSeal plaintext)
  let counter ← Call.orThrow .counter c.nextSendCounter
  set { c with nextSendCounter := checkedSucc64 counter }
  pure (.sealed (sendDirection c.localSide) counter (c.ciphertext counter plaintext))

/-- A failed opening leaves the channel terminal. -/
def fail {α : Type} (e : Error) : Call Error SecureChannel α := do
  modify fun c => { c with terminal := true }
  throw e

/-- Open one frame that carries the exact next peer counter. -/
def openFrame (frame : Frame) : Call Error SecureChannel Bytes := do
  let c ← get
  if c.terminal then throw .terminal
  else
    match frame with
    | .sealed direction counter ciphertext =>
      if direction ≠ receiveDirection c.localSide then fail .direction
      else if c.nextReceiveCounter ≠ some counter then fail .counter
      else if ciphertext.length < 17 ∨ maxPlaintext + 16 < ciphertext.length then fail .size
      else
        match aesGcmDecrypt c.receiveKey (deriveNonce c.receiveIv counter)
          (sealedAad direction counter c.transcriptHash) ciphertext with
        | none => fail .authentication
        | some plaintext => do
          set { c with nextReceiveCounter := checkedSucc64 counter }
          pure plaintext
    | _ => fail .schema

end SecureChannel

/-! ### What the calls do -/

namespace SecureChannel

omit [Primitives] in
theorem canSeal_eq_ok {c : SecureChannel} {plaintext : Bytes} :
    c.canSeal plaintext = .ok () ↔ c.terminal = false ∧ plaintext ≠ [] ∧
      plaintext.length ≤ maxPlaintext ∧ c.nextSendCounter.isSome = true := by
  unfold canSeal
  split_ifs with h1 h2 h3
  · simp [h1]
  · simp only [false_iff]
    rintro ⟨-, hne, hlen, -⟩
    exact h2.elim hne (not_lt.mpr hlen)
  · simp only [false_iff]
    rintro ⟨-, -, -, hsome⟩
    simp_all
  · simp only [not_or, not_lt] at h2
    exact iff_of_true rfl ⟨by simpa using h1, h2.1, h2.2, by simpa [Option.isSome_iff_ne_none] using h3⟩

theorem sealFrame_eq_ok {c c' : SecureChannel} {plaintext : Bytes} {f : Frame} :
    sealFrame plaintext c = .ok f c' ↔ c.canSeal plaintext = .ok () ∧
      ∃ counter, c.nextSendCounter = some counter ∧
        f = .sealed (sendDirection c.localSide) counter (c.ciphertext counter plaintext) ∧
        c' = { c with nextSendCounter := checkedSucc64 counter } := by
  simp only [sealFrame, Call.bind_eq_ok, Call.get_eq_ok, Call.ofExcept_eq_ok, Call.orThrow_eq_ok,
    Call.set_eq_ok, Call.pure_eq_ok]
  aesop

omit [Primitives] in
@[simp] theorem fail_ne_ok {α : Type} {e : Error} {a : α} {c c' : SecureChannel} :
    (fail e : Call Error SecureChannel α) c ≠ .ok a c' := by
  simp [fail]

theorem openFrame_eq_ok {c c' : SecureChannel} {f : Frame} {plaintext : Bytes} :
    openFrame f c = .ok plaintext c' ↔ c.terminal = false ∧ ∃ counter ciphertext,
      f = .sealed (receiveDirection c.localSide) counter ciphertext ∧
      c.nextReceiveCounter = some counter ∧
      (17 ≤ ciphertext.length ∧ ciphertext.length ≤ maxPlaintext + 16) ∧
      aesGcmDecrypt c.receiveKey (deriveNonce c.receiveIv counter)
        (sealedAad (receiveDirection c.localSide) counter c.transcriptHash) ciphertext =
        some plaintext ∧
      c' = { c with nextReceiveCounter := checkedSucc64 counter } := by
  rw [openFrame, Call.run_bind (Call.run_get c)]
  by_cases hterm : c.terminal = true
  · simp [hterm]
  rw [if_neg hterm]
  cases f with
  | cpace => simp
  | finished => simp
  | sealed d counter ciphertext =>
    by_cases hd : d = receiveDirection c.localSide
    swap
    · simp [hd]
    subst hd
    by_cases hc : c.nextReceiveCounter = some counter
    swap
    · simp [hc]
    by_cases hs : ciphertext.length < 17 ∨ maxPlaintext + 16 < ciphertext.length
    · simp only [ne_eq, not_true_eq_false, ↓reduceIte, hc, hs, fail_ne_ok, Frame.sealed.injEq,
        true_and, false_iff, not_and, not_exists]
      rintro - counter' ciphertext' ⟨rfl, rfl⟩ - hsize
      omega
    · simp only [ne_eq, not_true_eq_false, ↓reduceIte, hc, hs]
      have hterm : c.terminal = false := by simpa using hterm
      have hsize : 17 ≤ ciphertext.length ∧ ciphertext.length ≤ maxPlaintext + 16 := by omega
      cases haes : aesGcmDecrypt c.receiveKey (deriveNonce c.receiveIv counter)
          (sealedAad (receiveDirection c.localSide) counter c.transcriptHash) ciphertext with
      | none =>
        simp only [fail_ne_ok, Frame.sealed.injEq, true_and, false_iff, not_and, not_exists]
        rintro - counter' ciphertext' ⟨rfl, rfl⟩ - - h
        simp [haes] at h
      | some p =>
        simp only [Call.bind_eq_ok, Call.set_eq_ok, Call.pure_eq_ok, Frame.sealed.injEq, true_and]
        aesop

end SecureChannel

end CredentialV2
end CbclPairing
