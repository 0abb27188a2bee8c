import CbclPairing.CredentialV2.AllocatorSteps
import CbclPairing.CredentialV2.Claimant
import CbclPairing.CredentialV2.Sequences

/-! What a claimant call does: the ways it succeeds, and where a failed call may
leave the session. -/
namespace CbclPairing
namespace CredentialV2
open Codec Codec.Cbor Calls

variable [Primitives]

/-- The public calls of a claimant session; the wrapping key stays with the host. -/
inductive ClaimantCall where
  | start
  | receive (input : ServerInput) (now : UInt64)
  | authoriseAuthenticatedProfile (offerVerifier : OfferVerifier)
  | prepareApplicationObject (object : Object)
  | prepareFinalApproval (object : Object) (nonce : Octets 12) (now : UInt64)
  | checkpointPersisted (generation : UInt64)
  | resumeCachedFrame
  | preparePayload (object : Object) (nonce : Octets 12) (now : UInt64)
  | receiveDurable (input : ServerInput) (now : UInt64) (nonce : Octets 12)
  | receiveRecoveredReceipt (input : ServerInput)
  | authenticateRecoveredReceiptObject (object : Object)
  | commitRecoveredReceipt (receipt : RecoveredReceipt)

namespace ClaimantEffect

def put? : ClaimantEffect → Option (UInt8 × Bytes)
  | .send (.put sequence body) => some (sequence, body)
  | _ => none

def checkpoint? : ClaimantEffect → Option (UInt64 × Bytes)
  | .checkpoint generation bytes => some (generation, bytes)
  | _ => none

/-- Neither a checkpoint nor a put of a sealed frame. -/
def Bare (effect : ClaimantEffect) : Prop :=
  effect.checkpoint? = none ∧ ∀ p ∈ effect.put?, ∃ frame, encodeFrame frame = .ok p.2 ∧
    frame.isSealed = false

/-- Neither a checkpoint nor a put. -/
def Putless (effect : ClaimantEffect) : Prop := effect.checkpoint? = none ∧ effect.put? = none

omit [Primitives] in
theorem Putless.bare {effect : ClaimantEffect} (h : effect.Putless) : effect.Bare :=
  ⟨h.1, by simp [h.2]⟩

end ClaimantEffect

namespace ClaimantSession

variable {V : Type}

section Call

variable [BodyVerifier V]

def call (wrappingKey : Octets 32) :
    ClaimantCall → Call Error (ClaimantSession V) (List ClaimantEffect)
  | .start => do
    let s ← get
    let message ← Call.ofExcept s.start
    pure [.send message]
  | .receive input now => receive input now
  | .authoriseAuthenticatedProfile offerVerifier => do
    authoriseAuthenticatedProfile offerVerifier
    pure []
  | .prepareApplicationObject object => prepareApplicationObject object
  | .prepareFinalApproval object nonce now => prepareFinalApproval object wrappingKey nonce now
  | .checkpointPersisted generation => checkpointPersisted generation
  | .resumeCachedFrame => do
    let s ← get
    Call.ofExcept s.resumeCachedFrame
  | .preparePayload object nonce now => preparePayload object wrappingKey nonce now
  | .receiveDurable input now nonce => receiveDurable input now wrappingKey nonce
  | .receiveRecoveredReceipt input => do
    let _ ← receiveRecoveredReceipt input
    pure []
  | .authenticateRecoveredReceiptObject object => do
    let _ ← authenticateRecoveredReceiptObject object
    pure []
  | .commitRecoveredReceipt receipt => commitRecoveredReceipt receipt

end Call

/-! ### The application state of a session -/

/-- The session with another application state. -/
def withApplication (s : ClaimantSession V) (e : Established V) : ClaimantSession V :=
  { s with endpoint := some e.endpoint, channel := some e.channel, relay := some e.relay }

@[simp] theorem withApplication_application (s : ClaimantSession V) (e : Established V) :
    (s.withApplication e).application = some e := rfl

theorem application_eq_some {s : ClaimantSession V} {e : Established V} :
    s.application = some e ↔ s.endpoint = some e.endpoint ∧ s.channel = some e.channel ∧
      s.relay = some e.relay := by
  obtain ⟨endpoint, channel, relay⟩ := e
  unfold application
  cases s.endpoint <;> cases s.channel <;> cases s.relay <;> simp [Option.bind_eq_bind]

theorem withApplication_self {s : ClaimantSession V} {e : Established V}
    (h : s.application = some e) : s.withApplication e = s := by
  obtain ⟨hendpoint, hchannel, hrelay⟩ := application_eq_some.mp h
  cases s
  simp_all [withApplication]

theorem onRelay_eq_ok {α : Type} {m : Call Error RelayState α} {s s' : ClaimantSession V} {a : α} :
    onRelay m s = .ok a s' ↔ ∃ r r', s.relay = some r ∧ m r = .ok a r' ∧
      s' = { s with relay := some r' } := by
  rw [onRelay, Call.zoom?_eq_ok]
  simp only [eq_comm (a := s')]

theorem onChannel_eq_ok {α : Type} {m : Call Error SecureChannel α} {s s' : ClaimantSession V}
    {a : α} : onChannel m s = .ok a s' ↔ ∃ c c', s.channel = some c ∧ m c = .ok a c' ∧
      s' = { s with channel := some c' } := by
  rw [onChannel, Call.zoom?_eq_ok]
  simp only [eq_comm (a := s')]

theorem onEndpoint_eq_ok {α : Type} {m : Call Error (Endpoint V) α} {s s' : ClaimantSession V}
    {a : α} : onEndpoint m s = .ok a s' ↔ ∃ e e', s.endpoint = some e ∧ m e = .ok a e' ∧
      s' = { s with endpoint := some e' } := by
  rw [onEndpoint, Call.zoom?_eq_ok]
  simp only [eq_comm (a := s')]

theorem onApplication_eq_ok {α : Type} {m : Call Error (Established V) α}
    {s s' : ClaimantSession V} {a : α} : onApplication m s = .ok a s' ↔
      ∃ e e', s.application = some e ∧ m e = .ok a e' ∧ s' = s.withApplication e' := by
  rw [onApplication, Call.zoom?_eq_ok]
  simp only [eq_comm (a := s')]
  rfl

omit [Primitives] in
theorem putFrame_eq_ok {sequence : UInt8} {frame : Frame} {effect : ClaimantEffect} :
    putFrame sequence frame = .ok effect ↔ ∃ body, encodeFrame frame = .ok body ∧
      ClientMessage.recognised (.put sequence body) = true ∧ effect = .send (.put sequence body) := by
  simp only [putFrame, Calls.except_bind_eq_ok, putMessage_eq_ok, pure, Except.pure,
    Except.ok.injEq]
  constructor
  · rintro ⟨_, ⟨body, hbody, hput, rfl⟩, rfl⟩
    exact ⟨body, hbody, hput, rfl⟩
  · rintro ⟨body, hbody, hput, rfl⟩
    exact ⟨_, ⟨body, hbody, hput, rfl⟩, rfl⟩

omit [Primitives] in
theorem ackFrame_eq_ok {peerSeq : UInt8} {effect : ClaimantEffect} :
    ackFrame peerSeq = .ok effect ↔ ClientMessage.recognised (.ack peerSeq) = true ∧
      effect = .send (.ack peerSeq) := by
  simp only [ackFrame, Calls.except_bind_eq_ok, relayMessage_eq_ok, pure, Except.pure,
    Except.ok.injEq]
  constructor
  · rintro ⟨_, ⟨hack, rfl⟩, rfl⟩
    exact ⟨hack, rfl⟩
  · rintro ⟨hack, rfl⟩
    exact ⟨_, ⟨hack, rfl⟩, rfl⟩

/-! ### Stages -/

/-- Before the channel is confirmed: no endpoint, no gate, and nothing cached. -/
structure Starting (s : ClaimantSession V) : Prop where
  endpoint : s.endpoint = none
  unjoined : s.phase ≠ .shareSent → s.phase ≠ .finishedSent → s.relay = none
  ungated : s.persistenceGate = none
  empty : s.afterPersist = []
  uncached : ∀ relay ∈ s.relay, relay.cachedOutbound = none
  side : ∀ pending ∈ s.pendingChannel, pending.localSide = .claimant

/-- A session with its application state: coherent, the claimant's, and of the session's
own carrier. -/
structure Drives (s : ClaimantSession V) (e : Established V) : Prop where
  application : s.application = some e
  coherent : e.Coherent
  side : e.endpoint.side = .claimant
  carrier : e.endpoint.carrier = s.carrier

/-- The stages of a session. Only an established one is ever gated. -/
inductive Stage (s : ClaimantSession V) : Prop
  | starting : s.Starting → s.phase ≠ .established → s.phase ≠ .awaitProfileAuthorisation →
      Stage s
  | awaiting {e : Established V} : s.Drives e → s.phase = .awaitProfileAuthorisation →
      s.persistenceGate = none → s.afterPersist = [] → Stage s
  | running {e : Established V} : s.Drives e → s.phase = .established →
      (s.persistenceGate = none → s.afterPersist = []) → Stage s

/-- The peer object an open session takes: the Offer through the consumer's check,
any other through the reducer. -/
inductive Takes (e : Established V) [BodyVerifier V] (object : Object) : Established V → Prop
  | intro {peerSeq : UInt8} {frame : Frame} {plaintext : Bytes} {relay : RelayState}
      {channel : SecureChannel} {endpoint : Endpoint V} {advance : Advance} :
      RelayState.acceptPeerSequence peerSeq e.relay = .ok () relay →
      SecureChannel.openFrame frame e.channel = .ok plaintext channel →
      decodeObject plaintext = .ok object →
      ((∃ check, preOffer e.endpoint.phase = true ∧
          Endpoint.receiveOffer object check e.endpoint = .ok advance endpoint) ∨
        Endpoint.receive object e.endpoint = .ok advance endpoint) →
      Takes e object ⟨endpoint, channel, relay⟩

/-- The endpoint of a session whose channel was just confirmed. -/
structure Confirmed (e : Established V) : Prop where
  endpoint : ∃ carrier v, e.endpoint = Endpoint.new .claimant carrier v
  pending : ∃ pending frame, PendingChannel.confirm pending frame = .ok e.channel ∧
    pending.localSide = .claimant
  awaiting : e.relay.awaitingAck = false
  uncached : e.relay.cachedOutbound = none

/-- One frame prepared with the put it goes out in. -/
inductive Prepares [BodyVerifier V] (object : Object) (e e' : Established V) :
    UInt8 → Bytes → Prop
  | intro {frame : Frame} {sequence : UInt8} {body : Bytes} :
      Established.prepareOutbound object e = .ok frame e' →
      e'.relay.cachedApplicationSequence = .ok sequence → encodeFrame frame = .ok body →
      Prepares object e e' sequence body

section Progress

variable [BodyVerifier V]

/-- The state a checkpoint is sealed from, and the effects it covers: an own final
object with its put, or an acknowledgement in a durable phase. -/
inductive Covers (e : Established V) : Established V → List ClaimantEffect → Prop
  | object {object : Object} {e₁ : Established V} {sequence : UInt8} {body : Bytes} :
      object.kind = .finalApprove ∨
        object.kind = .payload ∧ e.endpoint.phase = .finalApproved →
      Prepares object e e₁ sequence body → Covers e e₁ [.send (.put sequence body)]
  | acknowledged {sequence : UInt8} {relay : RelayState} : durable e.endpoint.phase = true →
      RelayState.acknowledgeApplicationFrame sequence e.relay = .ok () relay →
      Covers e { e with relay } []

/-- The ways a call succeeds. -/
inductive Progress (key : Octets 32) (s : ClaimantSession V) (c : ClaimantCall) :
    List ClaimantEffect → ClaimantSession V → Prop
  | silent {effects : List ClaimantEffect} : (∀ effect ∈ effects, effect.Putless) →
      Progress key s c effects s
  | bootstrapped {effects : List ClaimantEffect} {s' : ClaimantSession V}
      {events : List StopAndWait.Event} : s.Starting → s'.Starting → s'.phase ≠ .established →
      s'.phase ≠ .awaitProfileAuthorisation → RelayState.Follows s.relay events s'.relay →
      (∀ effect ∈ effects, effect.Bare) → Progress key s c effects s'
  | confirmed {effects : List ClaimantEffect} {s' : ClaimantSession V} {e : Established V}
      {events : List StopAndWait.Event} : s.Starting → s'.application = some e → Confirmed e →
      e.endpoint.carrier = s'.carrier → s'.phase = .awaitProfileAuthorisation →
      s'.persistenceGate = none → s'.afterPersist = [] →
      RelayState.Follows s.relay events s'.relay → (∀ effect ∈ effects, effect.Putless) →
      Progress key s c effects s'
  | authorised {offerVerifier : OfferVerifier} : s.phase = .awaitProfileAuthorisation →
      Progress key s c [] { s with offerVerifier := some offerVerifier, phase := .established }
  | taken {e e' : Established V} {object : Object} {offer : Option Object}
      {effects : List ClaimantEffect} : s.phase = .established → s.application = some e →
      s.persistenceGate = none → durable e.endpoint.phase = false → Takes e object e' →
      (∀ effect ∈ effects, effect.Putless) →
      Progress key s c effects { s.withApplication e' with authenticatedOffer := offer }
  | acknowledged {e : Established V} {sequence : UInt8} {relay : RelayState} :
      s.phase = .established → s.application = some e → s.persistenceGate = none →
      durable e.endpoint.phase = false →
      RelayState.acknowledgeApplicationFrame sequence e.relay = .ok () relay →
      Progress key s c [] (s.withApplication { e with relay })
  | sent {e e' : Established V} {object : Object} {sequence : UInt8} {body : Bytes} :
      c = .prepareApplicationObject object → s.phase = .established → s.application = some e →
      s.persistenceGate = none → preFinal object.kind = true →
      Prepares object e e' sequence body →
      Progress key s c [.send (.put sequence body)] (s.withApplication e')
  | sealed_ {e e₁ : Established V} {after : List ClaimantEffect} {generation now : UInt64}
      {expiry : Option UInt64} {nonce : Octets 12} {checkpoint : Bytes} {endpoint : Endpoint V} :
      s.phase = .established → s.application = some e → s.persistenceGate = none →
      s.afterPersist = [] → Covers e e₁ after →
      generation = saturatingSucc e₁.endpoint.checkpointGeneration →
      Endpoint.sealCheckpoint e₁.channel e₁.relay key generation expiry nonce now e₁.endpoint =
        .ok checkpoint endpoint →
      Progress key s c [.checkpoint generation checkpoint]
        { s.withApplication { e₁ with endpoint } with
          persistenceGate := some generation, afterPersist := after }
  | persisted {generation : UInt64} : c = .checkpointPersisted generation →
      s.persistenceGate = some generation →
      Progress key s c s.afterPersist { s with persistenceGate := none, afterPersist := [] }
  | resumed {e : Established V} {frame : Frame} {sequence : UInt8} {body : Bytes} :
      c = .resumeCachedFrame → s.phase = .established → s.application = some e →
      s.persistenceGate = none → durable e.endpoint.phase = true →
      e.relay.cachedOutbound = some frame → e.relay.cachedApplicationSequence = .ok sequence →
      encodeFrame frame = .ok body → Progress key s c [.send (.put sequence body)] s
  | receipt {e : Established V} (e' : Established V) {s' : ClaimantSession V} :
      s.phase = .established → s.application = some e → s.persistenceGate = none →
      e.endpoint.phase = .payloadSent →
      s' = { s.withApplication e' with pendingRecoveredReceipt := true } →
      (e'.relay = e.relay ∨
        ∃ n, RelayState.acceptPeerSequence n e.relay = .ok () e'.relay) →
      e'.channel.nextSendCounter = e.channel.nextSendCounter →
      e'.channel.localSide = e.channel.localSide → e'.channel.terminal = e.channel.terminal →
      (∃ v, e'.endpoint = { e.endpoint with bodyVerifier := v }) → Progress key s c [] s'
  | ended {effects : List ClaimantEffect} {s' : ClaimantSession V} :
      (∀ effect ∈ effects, effect.Putless) → Progress key s c effects s'.terminate

end Progress

end ClaimantSession

end CredentialV2
end CbclPairing
