import CbclPairing.Contracts
import CbclPairing.Primitives
import CbclPairing.Wire.Codecs

/-! The version 1 channel: the role-bound key schedule of one transcript, the
confirmation of the peer's Finished value, and the two counted directions. -/
namespace CbclPairing
namespace Pairing
open Codec Codec.Cbor Calls Wire

/-- Channel validation and lifecycle failures the model can reach. -/
inductive ChannelError where
  | finishedMismatch
  | directionMismatch
  | counterMismatch
  | invalidTag
  | messageSize
  | counterExhausted
  | terminal
  | unexpectedFrame
  deriving DecidableEq, Repr

def maxSealedPlaintext : ℕ := 69556

structure PendingSecrets where
  keyAllocatorToClaimant : Octets 32
  keyClaimantToAllocator : Octets 32
  ivAllocatorToClaimant : Octets 12
  ivClaimantToAllocator : Octets 12
  exporter : Octets 32
  deriving DecidableEq

/-- A derived channel that waits for the peer's Finished value. -/
structure PendingChannel where
  localSide : Side
  transcriptHash : Octets 64
  localFinished : Octets 64
  peerFinished : Octets 64
  secrets : PendingSecrets
  deriving DecidableEq

/-- A confirmed, role-directed channel with contiguous counters. -/
structure SecureChannel where
  localSide : Side
  transcriptHash : Octets 64
  sendKey : Octets 32
  receiveKey : Octets 32
  sendIv : Octets 12
  receiveIv : Octets 12
  exporter : Octets 32
  nextSendCounter : Option UInt64
  nextReceiveCounter : Option UInt64
  terminal : Bool
  deriving DecidableEq

def sendDirection : Side → Direction
  | .allocator => .allocatorToClaimant
  | .claimant => .claimantToAllocator

def receiveDirection : Side → Direction
  | .allocator => .claimantToAllocator
  | .claimant => .allocatorToClaimant

def directionNumber : Direction → ℕ
  | .allocatorToClaimant => 0
  | .claimantToAllocator => 1

/-- The IV with the big-endian counter added in its last eight octets. -/
def deriveNonce (iv : Octets 12) (counter : UInt64) : Octets 12 :=
  ⟨iv.val.take 4 ++ List.zipWith (· ^^^ ·) (iv.val.drop 4) (beBytes 8 counter.toNat),
    length_counted iv counter⟩

def sealedAad (direction : Direction) (counter : UInt64) (transcriptHash : Octets 64) : Bytes :=
  toCanonicalVec (.map [(.text (ascii "v"), .integer 1),
    (.text (ascii "direction"), .integer (directionNumber direction)),
    (.text (ascii "counter"), .integer counter.toNat),
    (.text (ascii "th"), .bytes transcriptHash.val)])

variable [Primitives]

/-! ### The key schedule -/

def calculateTranscriptHash (publicContext allocatorCpaceFrame claimantCpaceFrame : Bytes) :
    Octets 64 :=
  sha512 (toCanonicalVec (.array [.bytes publicContext, .bytes allocatorCpaceFrame,
    .bytes claimantCpaceFrame]))

def expand (isk : Octets 64) (label : String) (transcriptHash : Octets 64) (length : ℕ) :
    Octets length :=
  hkdfSha512 [] isk.val (ascii label ++ transcriptHash.val) length

def finished (key : Octets 32) (label : String) (transcriptHash : Octets 64) : Octets 64 :=
  hmacSha512 key.val (ascii label ++ transcriptHash.val)

/-- The Finished value of one role. -/
def finishedValue (isk transcriptHash : Octets 64) : Side → Octets 64
  | .allocator => finished (expand isk "pairing-v1 kc A" transcriptHash 32)
      "pairing-v1 finished A" transcriptHash
  | .claimant => finished (expand isk "pairing-v1 kc B" transcriptHash 32)
      "pairing-v1 finished B" transcriptHash

namespace PendingChannel

def new (localSide : Side) (isk : Octets 64)
    (publicContext allocatorCpaceFrame claimantCpaceFrame : Bytes) : PendingChannel :=
  let th := calculateTranscriptHash publicContext allocatorCpaceFrame claimantCpaceFrame
  { localSide
    transcriptHash := th
    localFinished := finishedValue isk th localSide
    peerFinished := finishedValue isk th localSide.opposite
    secrets :=
      { keyAllocatorToClaimant := expand isk "pairing-v1 key A-B" th 32
        keyClaimantToAllocator := expand isk "pairing-v1 key B-A" th 32
        ivAllocatorToClaimant := expand isk "pairing-v1 iv A-B" th 12
        ivClaimantToAllocator := expand isk "pairing-v1 iv B-A" th 12
        exporter := expand isk "pairing-v1 exporter" th 32 } }

omit [Primitives] in
/-- Verify the peer's Finished value and activate the channel. -/
def confirm (p : PendingChannel) (peerFinished : Bytes) : Except ChannelError SecureChannel :=
  if peerFinished.length ≠ 64 ∨ p.peerFinished.val ≠ peerFinished then .error .finishedMismatch
  else
    match p.localSide with
    | .allocator => .ok
      { localSide := p.localSide, transcriptHash := p.transcriptHash
        sendKey := p.secrets.keyAllocatorToClaimant
        receiveKey := p.secrets.keyClaimantToAllocator
        sendIv := p.secrets.ivAllocatorToClaimant
        receiveIv := p.secrets.ivClaimantToAllocator
        exporter := p.secrets.exporter
        nextSendCounter := some 0, nextReceiveCounter := some 0, terminal := false }
    | .claimant => .ok
      { localSide := p.localSide, transcriptHash := p.transcriptHash
        sendKey := p.secrets.keyClaimantToAllocator
        receiveKey := p.secrets.keyAllocatorToClaimant
        sendIv := p.secrets.ivClaimantToAllocator
        receiveIv := p.secrets.ivAllocatorToClaimant
        exporter := p.secrets.exporter
        nextSendCounter := some 0, nextReceiveCounter := some 0, terminal := false }

omit [Primitives] in
/-- A pending channel confirms exactly the Finished value it was derived with. -/
theorem confirm_isOk {p : PendingChannel} {value : Octets 64} :
    (∃ channel, p.confirm value.val = .ok channel) ↔ value = p.peerFinished := by
  unfold confirm
  rw [value.property, Subtype.ext_iff]
  constructor
  · rintro ⟨channel, h⟩
    obtain ⟨hvalue, -⟩ := Calls.guard_eq_ok.mp h
    simp only [ne_eq, not_true_eq_false, false_or, not_not] at hvalue
    exact hvalue.symm
  · intro h
    rw [if_neg (by simp [h])]
    cases p.localSide
    · exact ⟨_, rfl⟩
    · exact ⟨_, rfl⟩

end PendingChannel

/-! ### Sealed frames -/

namespace SecureChannel

/-- Seal one plaintext with the exact next counter of the local direction. -/
def sealFrame (plaintext : Bytes) : Call ChannelError SecureChannel ChannelFrame := do
  let c ← get
  if c.terminal then throw .terminal
  else if plaintext = [] ∨ maxSealedPlaintext < plaintext.length then throw .messageSize
  else do
    let counter ← Call.orThrow .counterExhausted c.nextSendCounter
    let direction := sendDirection c.localSide
    set { c with nextSendCounter := checkedSucc64 counter }
    pure (.sealed direction counter (aesGcmEncrypt c.sendKey (deriveNonce c.sendIv counter)
      (sealedAad direction counter c.transcriptHash) plaintext))

omit [Primitives] in
/-- A failed opening leaves the channel terminal. -/
def fail {α : Type} (e : ChannelError) : Call ChannelError SecureChannel α := do
  modify fun c => { c with terminal := true }
  throw e

/-- Open one frame with the exact next counter of the peer direction. -/
def openFrame (frame : ChannelFrame) : Call ChannelError SecureChannel Bytes := do
  let c ← get
  if c.terminal then throw .terminal
  else
    match frame with
    | .sealed direction counter ciphertext =>
      if direction ≠ receiveDirection c.localSide then fail .directionMismatch
      else
        match c.nextReceiveCounter with
        | none => fail .counterExhausted
        | some expectedCounter =>
          if counter ≠ expectedCounter then fail .counterMismatch
          else if ciphertext.length < 17 ∨ maxSealedPlaintext + 16 < ciphertext.length then
            fail .messageSize
          else
            match aesGcmDecrypt c.receiveKey (deriveNonce c.receiveIv counter)
              (sealedAad direction counter c.transcriptHash) ciphertext with
            | none => fail .invalidTag
            | some plaintext => do
              set { c with nextReceiveCounter := checkedSucc64 counter }
              pure plaintext
    | _ => fail .unexpectedFrame

/-- What sealing hands out is a sealed frame in the local direction. -/
theorem sealFrame_meets (plaintext : Bytes) (c : SecureChannel) :
    (sealFrame plaintext).Meets
      (fun frame _ => ∃ counter ciphertext,
        frame = .sealed (sendDirection c.localSide) counter ciphertext)
      (fun _ c' => c' = c) c := by
  unfold sealFrame
  simp only [Call.meets_bind, Call.meets_get, Call.meets_ite, Call.meets_throw,
    Call.meets_orThrow, Call.meets_set, Call.meets_pure, implies_true, and_true, true_and]
  intro _ _ counter _
  exact ⟨counter, _, rfl⟩

end SecureChannel
end Pairing
end CbclPairing
