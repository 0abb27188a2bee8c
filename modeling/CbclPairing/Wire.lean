import CbclPairing.Primitives

/-! Relay messages shared by both endpoints and the mailbox. A typed message
stands for its one deterministic encoding; the recognisers admit exactly the
messages inside the bounds of the message grammar. -/
namespace CbclPairing
open Codec

inductive Side where
  | allocator
  | claimant
  deriving DecidableEq, Repr

namespace Side

def opposite : Side → Side
  | .allocator => .claimant
  | .claimant => .allocator

@[simp] theorem opposite_opposite (s : Side) : s.opposite.opposite = s := by cases s <;> rfl

@[simp] theorem opposite_ne (s : Side) : s.opposite ≠ s := by cases s <;> decide

theorem exists_iff {p : Side → Prop} : (∃ side, p side) ↔ p .allocator ∨ p .claimant := by
  constructor
  · rintro ⟨side, h⟩
    cases side with
    | allocator => exact .inl h
    | claimant => exact .inr h
  · intro h
    rcases h with h | h
    · exact ⟨_, h⟩
    · exact ⟨_, h⟩

end Side

inductive Direction where
  | allocatorToClaimant
  | claimantToAllocator
  deriving DecidableEq, Repr

/-- The claimant's one-use mailbox bearer. -/
abbrev ClaimToken := Octets 16

def suiteId : Bytes := ascii "CPACE25519-SHA512-D21"

def claimCommitment [Primitives] (mailboxId : Octets 32) (token : ClaimToken) : Octets 32 :=
  sha256 (ascii "cbcl-pairing claim-v2 commitment" ++ [0] ++ mailboxId.val ++ token.val)

inductive Locator where
  | direct (mailboxId : Octets 32)
  | nameplate (number : ℕ)
  deriving DecidableEq

inductive ClientMessage where
  | bind
  | allocate (locatorMode : UInt8) (ttlSeconds : Option ℕ)
  | claim (locator : Locator)
  | allocateV2 (mailboxId claimCommitment : Octets 32) (ttlSeconds : Option ℕ)
  | claimV2 (mailboxId : Octets 32) (token : ClaimToken)
  | openMailbox (mailboxId membershipToken : Octets 32)
  | put (seq : UInt8) (body : Bytes)
  | ack (peerSeq : UInt8)
  | close
  | ping
  deriving DecidableEq

inductive CloseReason where
  | closed
  | crowded
  | expired
  | conflict
  deriving DecidableEq, Repr

inductive ServerMessage where
  | welcome
  | allocated (mailboxId membershipToken : Octets 32) (nameplate : Option ℕ) (expiresAt : UInt64)
  | claimed (mailboxId membershipToken : Octets 32) (expiresAt : UInt64)
  | allocatedV2 (mailboxId membershipToken : Octets 32) (expiresAt : UInt64)
  | claimedV2 (mailboxId membershipToken : Octets 32) (expiresAt : UInt64)
  | frame (peerSeq : UInt8) (body : Bytes)
  | acknowledged (seq : UInt8)
  | closed (reason : CloseReason)
  | error (code : ℕ)
  | pong
  deriving DecidableEq

inductive RecognitionError where
  | malformedCbor
  | trailingBytes
  | nonDeterministic
  | duplicateKey
  | schema
  | applicationId
  | relayOrigin
  | typedValue
  deriving DecidableEq, Repr

/-- A relay message body: between one and 69,632 octets. -/
def admissibleBody (body : Bytes) : Bool := 0 < body.length && body.length ≤ 69632

namespace Locator

def recognised : Locator → Bool
  | .direct _ => true
  | .nameplate number => number ≤ 999999999

end Locator

namespace ClientMessage

/-- The bounds of the `client-message` rule. -/
def recognised : ClientMessage → Bool
  | .bind | .claimV2 .. | .openMailbox .. | .close | .ping => true
  | .allocate locatorMode ttlSeconds =>
    locatorMode.toNat ≤ 1 && ttlSeconds.all fun ttl => 60 ≤ ttl && ttl ≤ 86400
  | .claim locator => locator.recognised
  | .allocateV2 _ _ ttlSeconds => ttlSeconds.all (· == 900)
  | .put seq body => seq.toNat ≤ 15 && admissibleBody body
  | .ack peerSeq => peerSeq.toNat ≤ 15

end ClientMessage

namespace ServerMessage

/-- The bounds of the `server-message` rule. -/
def recognised : ServerMessage → Bool
  | .welcome | .claimed .. | .allocatedV2 .. | .claimedV2 .. | .closed _ | .pong => true
  | .allocated _ _ nameplate _ => nameplate.all (· ≤ 999999999)
  | .frame peerSeq body => peerSeq.toNat ≤ 15 && admissibleBody body
  | .acknowledged seq => seq.toNat ≤ 15
  | .error code => [400, 404, 409, 410, 413, 429, 503].contains code

theorem recognised_welcome : welcome.recognised = true := rfl

theorem recognised_acknowledged_zero : (acknowledged 0).recognised = true := rfl

end ServerMessage

/-- The verdict of the server-message recogniser on one input: a message inside
the grammar, or the reason there is none. -/
abbrev ServerInput := Except RecognitionError {m : ServerMessage // m.recognised = true}

/-- Encode one client message, refusing what the grammar does not admit. -/
def encodeClientMessage (message : ClientMessage) : Except RecognitionError ClientMessage :=
  if message.recognised then .ok message else .error .schema

end CbclPairing
