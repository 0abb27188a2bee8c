import CbclPairing.CredentialV2.Restored

/-! The relay-driven claimant session. It keeps no durable state before the final
approval; from there on its frames wait for a confirmed checkpoint. -/
namespace CbclPairing
namespace CredentialV2
open Codec Codec.Cbor Calls

variable [Primitives]

inductive ClaimantEffect where
  | send (message : ClientMessage)
  | checkpoint (generation : UInt64) (checkpoint : Bytes)
  | established (transcriptHash : Octets 64)
  | displayIntent (display : Display)
  | receivedObject (object : Object)
  | terminal
  deriving DecidableEq

/-- One authenticated receipt, with the peer sequence to acknowledge when it came
over the relay. -/
structure RecoveredReceipt where
  object : Object
  authority : RecoveredReceiptAuthority
  peerSeq : Option UInt8
  deriving DecidableEq

inductive ClaimantPhase where
  | awaitWelcome
  | claimSent
  | shareSent
  | finishedSent
  | awaitProfileAuthorisation
  | established
  | terminal
  deriving DecidableEq, Repr

structure ClaimantInput where
  carrier : Carrier
  presence : Presence
  cpaceScalar : Octets 32
  profileDigest : Octets 32

/-- The consumer's answer to one offer at one time: what the endpoint's offer
transition is given, or a refusal. -/
abbrev OfferVerifier := Object → UInt64 → Except Error OfferCheck

structure ClaimantSession (V : Type) where
  carrier : Carrier
  presence : Option Presence
  claimToken : Option ClaimToken
  cpaceScalar : Octets 32
  profileDigest : Octets 32
  phase : ClaimantPhase
  relay : Option RelayState
  localShare : Option Frame
  peerShare : Option Frame
  pendingChannel : Option PendingChannel
  peerFinished : Option Frame
  endpoint : Option (Endpoint V)
  channel : Option SecureChannel
  bodyVerifier : Option V
  offerVerifier : Option OfferVerifier
  authenticatedOffer : Option Object
  persistenceGate : Option UInt64
  afterPersist : List ClaimantEffect
  pendingRecoveredReceipt : Bool

namespace ClaimantSession

variable {V : Type}

def new (input : ClaimantInput) (bodyVerifier : V) : ClaimantSession V :=
  { carrier := input.carrier, presence := some input.presence, claimToken := none
    cpaceScalar := input.cpaceScalar, profileDigest := input.profileDigest
    phase := .awaitWelcome, relay := none, localShare := none, peerShare := none
    pendingChannel := none, peerFinished := none, endpoint := none, channel := none
    bodyVerifier := some bodyVerifier, offerVerifier := none, authenticatedOffer := none
    persistenceGate := none, afterPersist := [], pendingRecoveredReceipt := false }

def durable (phase : Phase) : Bool := phase == .finalApproved || phase == .payloadSent

/-- Restore only a post-final endpoint. -/
def restore [BodyVerifier V] (checkpoint : Bytes) (wrappingKey : Octets 32) (carrier : Carrier)
    (expectedGeneration now : UInt64) (bodyVerifier : V) : Except Error (ClaimantSession V) := do
  let s ← Endpoint.restoreCheckpoint checkpoint wrappingKey .claimant carrier expectedGeneration
    now bodyVerifier
  if !durable s.endpoint.phase then .error .phase
  else
    pure
      { carrier, presence := none, claimToken := none, cpaceScalar := Octets.replicate 32 0
        profileDigest := Octets.replicate 32 0, phase := .established, relay := some s.relay
        localShare := none, peerShare := none, pendingChannel := none, peerFinished := none
        endpoint := some s.endpoint, channel := some s.channel, bodyVerifier := none
        offerVerifier := none, authenticatedOffer := none, persistenceGate := none
        afterPersist := [], pendingRecoveredReceipt := false }

def terminate (s : ClaimantSession V) : ClaimantSession V :=
  { s with
    phase := .terminal, presence := none, claimToken := none, cpaceScalar := Octets.replicate 32 0
    localShare := none, peerShare := none, pendingChannel := none, peerFinished := none
    endpoint := none, channel := none, relay := none, authenticatedOffer := none
    persistenceGate := none, afterPersist := [], pendingRecoveredReceipt := false }

/-- Run a call and terminate the session when it fails. -/
def guarded {α : Type} (m : Call Error (ClaimantSession V) α) :
    Call Error (ClaimantSession V) α := fun s =>
  match m s with
  | .ok a s' => .ok a s'
  | .error e s' => .error e s'.terminate

def onRelay {α : Type} (m : Call Error RelayState α) : Call Error (ClaimantSession V) α :=
  Call.zoom? .phase relay (fun relay s => { s with relay := some relay }) m

def onChannel {α : Type} (m : Call Error SecureChannel α) : Call Error (ClaimantSession V) α :=
  Call.zoom? .phase channel (fun channel s => { s with channel := some channel }) m

def onEndpoint {α : Type} (m : Call Error (Endpoint V) α) : Call Error (ClaimantSession V) α :=
  Call.zoom? .phase endpoint (fun endpoint s => { s with endpoint := some endpoint }) m

/-- The endpoint with the channel and relay projection it drives. -/
def application (s : ClaimantSession V) : Option (Established V) := do
  let endpoint ← s.endpoint
  let channel ← s.channel
  let relay ← s.relay
  some ⟨endpoint, channel, relay⟩

def onApplication {α : Type} (m : Call Error (Established V) α) :
    Call Error (ClaimantSession V) α :=
  Call.zoom? .phase application (fun e s =>
    { s with endpoint := some e.endpoint, channel := some e.channel, relay := some e.relay }) m

def hasDurableEndpointPhase (s : ClaimantSession V) : Bool :=
  s.endpoint.any fun endpoint => durable endpoint.phase

def hasCachedOutboundFrame (s : ClaimantSession V) : Bool :=
  s.relay.any fun relay => relay.cachedOutbound.isSome

def endpointPhase (s : ClaimantSession V) : Option Phase := s.endpoint.map Endpoint.phase

def start (s : ClaimantSession V) : Except Error ClientMessage :=
  if s.phase ≠ .awaitWelcome then .error .phase else relayMessage .bind

def putFrame (sequence : UInt8) (frame : Frame) : Except Error ClaimantEffect := do
  let message ← putMessage sequence frame
  pure (.send message)

def ackFrame (peerSeq : UInt8) : Except Error ClaimantEffect := do
  let message ← relayMessage (.ack peerSeq)
  pure (.send message)

/-! ### Bootstrap -/

/-- The claimant's CPace state and share. -/
def share (s : ClaimantSession V) : Except Error (Cpace.CpaceState × Frame) :=
  match s.presence with
  | none => .error .phase
  | some presence => do
    let (state, message) ← (Context.derive s.carrier s.profileDigest).startCpace .claimant presence
      s.cpaceScalar
    let frame ← Frame.ofCpace message
    pure (state, frame)

def welcomed : Call Error (ClaimantSession V) (List ClaimantEffect) := do
  let claimToken ← Call.zoom? .phase presence
    (fun presence s => { s with presence := some presence }) Presence.takeClaimToken
  modify fun s => { s with claimToken := some claimToken, phase := .claimSent }
  let s ← get
  let message ← Call.ofExcept (relayMessage (.claimV2 s.carrier.mailboxId claimToken))
  pure [.send message]

def claimed (mailboxId membershipToken : Octets 32) (expiresAt : UInt64) :
    Call Error (ClaimantSession V) (List ClaimantEffect) := do
  let s ← get
  if mailboxId ≠ s.carrier.mailboxId ∨ expiresAt ≠ s.carrier.relayExpiresAt then throw .profile
  else do
    modify fun s => { s with claimToken := none }
    let (_, share) ← Call.ofExcept s.share
    match RelayState.queueBootstrapFrame (RelayState.new membershipToken) with
    | .error e _ => throw e
    | .ok sequence relay => do
      modify fun s => { s with localShare := some share, relay := some relay, phase := .shareSent }
      let put ← Call.ofExcept (putFrame sequence share)
      pure [put]

/-- The key schedule of both shares. -/
def schedule (s : ClaimantSession V) (state : Cpace.CpaceState) (localShare peerShare : Frame)
    (peerMessage : CpaceMessage) : Except Error PendingChannel := do
  let isk ← (Cpace.finish state peerMessage).mapError fun _ => .cpace
  let peerBytes ← encodeFrame peerShare
  let localBytes ← encodeFrame localShare
  pure (PendingChannel.new .claimant isk (Context.derive s.carrier s.profileDigest).publicContext
    peerBytes localBytes)

def prepareFinished : Call Error (ClaimantSession V) ClaimantEffect := do
  let s ← get
  let (state, localShare) ← Call.ofExcept s.share
  if s.localShare ≠ some localShare then throw .profile
  else do
    let peerShare ← Call.orThrow .phase s.peerShare
    let peerMessage ← Call.orThrow .schema peerShare.cpaceMessage
    let pending ← Call.ofExcept (s.schedule state localShare peerShare peerMessage)
    let sequence ← onRelay RelayState.queueBootstrapFrame
    modify fun s => { s with pendingChannel := some pending, phase := .finishedSent }
    Call.ofExcept (putFrame sequence pending.localFinishedFrame)

def establish (ack : Option ClaimantEffect) :
    Call Error (ClaimantSession V) (List ClaimantEffect) := do
  let s ← get
  let peerFinished ← Call.orThrow .finished s.peerFinished
  set { s with pendingChannel := none }
  let pending ← Call.orThrow .phase s.pendingChannel
  let channel ← Call.ofExcept (pending.confirm peerFinished)
  let relay ← Call.orThrow .phase s.relay
  if relay.awaitingAck then throw .phase
  else do
    let bodyVerifier ← Call.orThrow .phase s.bodyVerifier
    set { s with
      pendingChannel := none, bodyVerifier := none
      endpoint := some (Endpoint.new .claimant s.carrier bodyVerifier), channel := some channel
      phase := .awaitProfileAuthorisation, presence := none
      cpaceScalar := Octets.replicate 32 0, localShare := none, peerShare := none
      peerFinished := none }
    pure (ack.toList ++ [.established channel.transcriptHash])

/-! ### Relay messages before the final approval -/

section Verified

variable [BodyVerifier V]

/-- Before the Offer only the consumer's verifier may advance the endpoint. -/
def receiveObject (object : Object) (now : UInt64) : Call Error (ClaimantSession V) Advance := do
  let s ← get
  let endpoint ← Call.orThrow .phase s.endpoint
  if preOffer endpoint.phase then
    if object.kind ≠ .offer then throw .phase
    else do
      let verifier ← Call.orThrow .phase s.offerVerifier
      let check ← Call.ofExcept (verifier object now)
      onEndpoint (Endpoint.receiveOffer object check)
  else onEndpoint (Endpoint.receive object)

def peerApplicationFrame (peerSeq : UInt8) (frame : Frame) (now : UInt64) :
    Call Error (ClaimantSession V) (List ClaimantEffect) := do
  onRelay (RelayState.acceptPeerSequence peerSeq)
  let plaintext ← onChannel (SecureChannel.openFrame frame)
  let object ← Call.ofExcept (decodeObject plaintext)
  let advance ← receiveObject object now
  let ack ← Call.ofExcept (ackFrame peerSeq)
  match advance with
  | .displayIntent display => do
    modify fun s => { s with authenticatedOffer := some object }
    pure [ack, .displayIntent display]
  | .advanced => pure [ack, .receivedObject object]
  | .exactRetransmission => pure [ack]

def peerFrame (peerSeq : UInt8) (body : Bytes) (now : UInt64) :
    Call Error (ClaimantSession V) (List ClaimantEffect) := do
  let frame ← Call.ofExcept (decodeFrame body)
  let s ← get
  if s.phase = .established then peerApplicationFrame peerSeq frame now
  else do
    onRelay (RelayState.acceptPeerSequence peerSeq)
    let ack ← Call.ofExcept (ackFrame peerSeq)
    let s ← get
    match s.phase with
    | .shareSent =>
      if !Bootstrap.cpaceFrom .allocator frame then throw .direction
      else do
        modify fun s => { s with peerShare := some frame }
        let relay ← Call.orThrow .phase s.relay
        if relay.awaitingAck then pure [ack]
        else do
          let put ← prepareFinished
          pure [ack, put]
    | .finishedSent =>
      if !Bootstrap.finishedFrom .allocator frame then throw .direction
      else do
        modify fun s => { s with peerFinished := some frame }
        let relay ← Call.orThrow .phase s.relay
        if relay.awaitingAck then pure [ack] else establish (some ack)
    | _ => throw .phase

omit [BodyVerifier V] in
def localAck (sequence : UInt8) : Call Error (ClaimantSession V) (List ClaimantEffect) := do
  let s ← get
  let relay ← Call.orThrow .phase s.relay
  if relay.acknowledgementAlreadyApplied sequence then pure []
  else if s.phase = .established then do
    onRelay (RelayState.acknowledgeApplicationFrame sequence)
    pure []
  else do
    onRelay (RelayState.acknowledgeBootstrapFrame sequence)
    match s.phase with
    | .shareSent =>
      if s.peerShare.isSome then do
        let put ← prepareFinished
        pure [put]
      else if s.peerFinished.isNone then pure []
      else throw .phase
    | .finishedSent => if s.peerFinished.isNone then pure [] else establish none
    | _ => throw .phase

def applyServer (message : ServerMessage) (now : UInt64) :
    Call Error (ClaimantSession V) (List ClaimantEffect) := do
  let s ← get
  match message with
  | .welcome => if s.phase = .awaitWelcome then welcomed else throw .phase
  | .claimedV2 mailboxId membershipToken expiresAt =>
    if s.phase = .claimSent then claimed mailboxId membershipToken expiresAt else throw .phase
  | .frame peerSeq body => peerFrame peerSeq body now
  | .acknowledged seq => localAck seq
  | .pong => pure []
  | .closed _ | .error _ => do
    modify terminate
    pure [.terminal]
  | _ => throw .phase

/-- Apply one complete relay response while the carrier is live. -/
def receive (input : ServerInput) (now : UInt64) :
    Call Error (ClaimantSession V) (List ClaimantEffect) := do
  let s ← get
  if s.persistenceGate.isSome ∨ s.hasDurableEndpointPhase then throw .phase
  else if s.phase = .terminal then throw .terminal
  else if s.carrier.relayExpiresAt ≤ now then do
    modify terminate
    throw .expired
  else guarded (match input with
    | .error _ => throw .schema
    | .ok message => applyServer message.val now)

omit [BodyVerifier V] in
def authoriseAuthenticatedProfile (offerVerifier : OfferVerifier) :
    Call Error (ClaimantSession V) Unit := do
  let s ← get
  if s.phase ≠ .awaitProfileAuthorisation then throw .phase
  else set { s with offerVerifier := some offerVerifier, phase := .established }

/-! ### Own objects -/

omit [Primitives] [BodyVerifier V] in
/-- The kinds that never need a checkpoint. -/
def preFinal : Kind → Bool
  | .accountSelect | .intentApprove | .intentDecline | .preparation | .refusal | .finalDecline =>
    true
  | _ => false

/-- Cache one sealed frame and find the sequence it goes out with. -/
def prepareFrame (object : Object) : Call Error (Established V) (UInt8 × Frame) := do
  let frame ← Established.prepareOutbound object
  let s ← get
  let sequence ← Call.ofExcept s.relay.cachedApplicationSequence
  pure (sequence, frame)

/-- Seal one object without durable authority. -/
def prepareApplicationObject (object : Object) :
    Call Error (ClaimantSession V) (List ClaimantEffect) := do
  let s ← get
  if s.persistenceGate.isSome ∨ s.phase ≠ .established ∨ !preFinal object.kind then throw .phase
  else do
    let (sequence, frame) ← onApplication (prepareFrame object)
    let put ← Call.ofExcept (putFrame sequence frame)
    pure [put]

def prepareFinalApproval (object : Object) (wrappingKey : Octets 32) (nonce : Octets 12)
    (now : UInt64) : Call Error (ClaimantSession V) (List ClaimantEffect) := do
  let s ← get
  if s.persistenceGate.isSome ∨ s.afterPersist ≠ [] ∨ s.phase ≠ .established ∨
      object.kind ≠ .finalApprove then throw .phase
  else guarded (do
    let (sequence, frame, generation, checkpoint) ← onApplication (do
      let (sequence, frame) ← prepareFrame object
      let e ← get
      let generation := saturatingSucc e.endpoint.checkpointGeneration
      let checkpoint ← Established.onEndpoint (Endpoint.sealCheckpoint e.channel e.relay
        wrappingKey generation (some s.carrier.relayExpiresAt) nonce now)
      pure (sequence, frame, generation, checkpoint))
    modify fun s => { s with persistenceGate := some generation }
    let put ← Call.ofExcept (putFrame sequence frame)
    modify fun s => { s with afterPersist := [put] }
    pure [.checkpoint generation checkpoint])

omit [BodyVerifier V] in
/-- Confirm durable storage and release only the frame it covers. -/
def checkpointPersisted (generation : UInt64) :
    Call Error (ClaimantSession V) (List ClaimantEffect) := do
  let s ← get
  if s.persistenceGate ≠ some generation then throw .counter
  else do
    set { s with persistenceGate := none, afterPersist := [] }
    pure s.afterPersist

omit [BodyVerifier V] in
/-- Repeat the cached frame a durable checkpoint covers. -/
def resumeCachedFrame (s : ClaimantSession V) : Except Error (List ClaimantEffect) :=
  if s.persistenceGate.isSome ∨ s.phase ≠ .established ∨ !s.hasDurableEndpointPhase then
    .error .phase
  else
    match s.relay with
    | none => .error .phase
    | some relay =>
      match relay.cachedOutbound with
      | none => .ok []
      | some frame => do
        let sequence ← relay.cachedApplicationSequence
        let put ← putFrame sequence frame
        .ok [put]

def checkpointCurrent (wrappingKey : Octets 32) (nonce : Octets 12) (now : UInt64)
    (expiry : Option UInt64) (after : List ClaimantEffect) :
    Call Error (ClaimantSession V) (List ClaimantEffect) := do
  let s ← get
  if s.persistenceGate.isSome ∨ s.afterPersist ≠ [] then throw .phase
  else do
    let (generation, checkpoint) ← onApplication (do
      let e ← get
      let generation := saturatingSucc e.endpoint.checkpointGeneration
      let checkpoint ← Established.onEndpoint (Endpoint.sealCheckpoint e.channel e.relay
        wrappingKey generation expiry nonce now)
      pure (generation, checkpoint))
    modify fun s => { s with persistenceGate := some generation, afterPersist := after }
    pure [.checkpoint generation checkpoint]

def preparePayload (object : Object) (wrappingKey : Octets 32) (nonce : Octets 12)
    (now : UInt64) : Call Error (ClaimantSession V) (List ClaimantEffect) := do
  let s ← get
  if s.persistenceGate.isSome ∨ s.afterPersist ≠ [] ∨ s.phase ≠ .established ∨
      s.endpointPhase ≠ some .finalApproved ∨ object.kind ≠ .payload then throw .phase
  else if s.carrier.relayExpiresAt ≤ now then throw .expired
  else guarded (do
    let (sequence, frame) ← onApplication (prepareFrame object)
    let put ← Call.ofExcept (putFrame sequence frame)
    checkpointCurrent wrappingKey nonce now none [put])

/-! ### After the final approval -/

/-- The expiry a checkpoint of a durable phase carries. -/
def durableExpiry (carrier : Carrier) : Phase → Option UInt64
  | .finalApproved => some carrier.relayExpiresAt
  | _ => none

def receiveDurable (input : ServerInput) (now : UInt64) (wrappingKey : Octets 32)
    (nonce : Octets 12) : Call Error (ClaimantSession V) (List ClaimantEffect) := do
  let s ← get
  if s.persistenceGate.isSome ∨ s.phase ≠ .established ∨ !s.hasDurableEndpointPhase then throw .phase
  else do
    let endpointPhase ← Call.orThrow .phase s.endpointPhase
    if endpointPhase = .finalApproved ∧ s.carrier.relayExpiresAt ≤ now then throw .expired
    else
      match input with
      | .error _ => throw .schema
      | .ok ⟨.acknowledged seq, _⟩ => do
        let relay ← Call.orThrow .phase s.relay
        if relay.acknowledgementAlreadyApplied seq then pure []
        else do
          let _ ← localAck seq
          checkpointCurrent wrappingKey nonce now (durableExpiry s.carrier endpointPhase) []
      | .ok _ => throw .phase

/-- Open and authenticate the Receipt without acknowledging it. -/
def receiveRecoveredReceipt (input : ServerInput) :
    Call Error (ClaimantSession V) RecoveredReceipt := do
  let s ← get
  if s.persistenceGate.isSome ∨ s.phase ≠ .established ∨ s.endpointPhase ≠ some .payloadSent ∨
      s.pendingRecoveredReceipt ∨ s.hasCachedOutboundFrame then throw .phase
  else guarded (
    match input with
    | .error _ => throw .schema
    | .ok ⟨.frame peerSeq body, _⟩ => do
      let frame ← Call.ofExcept (decodeFrame body)
      onRelay (RelayState.acceptPeerSequence peerSeq)
      let plaintext ← onChannel (SecureChannel.openFrame frame)
      let object ← Call.ofExcept (decodeObject plaintext)
      let authority ← onEndpoint (Endpoint.authenticateRecoveredReceipt object)
      modify fun s => { s with pendingRecoveredReceipt := true }
      pure { object, authority, peerSeq := some peerSeq }
    | .ok _ => throw .phase)

/-- Authenticate a Receipt that came another way; a refusal keeps the session. -/
def authenticateRecoveredReceiptObject (object : Object) :
    Call Error (ClaimantSession V) RecoveredReceipt := do
  let s ← get
  if s.persistenceGate.isSome ∨ s.phase ≠ .established ∨ s.endpointPhase ≠ some .payloadSent ∨
      s.pendingRecoveredReceipt then throw .phase
  else do
    let authority ← onEndpoint (Endpoint.authenticateRecoveredReceipt object)
    modify fun s => { s with pendingRecoveredReceipt := true }
    pure { object, authority, peerSeq := none }

omit [BodyVerifier V] in
def commitRecoveredReceipt (receipt : RecoveredReceipt) :
    Call Error (ClaimantSession V) (List ClaimantEffect) := do
  let s ← get
  if !s.pendingRecoveredReceipt ∨ s.persistenceGate.isSome ∨ s.phase ≠ .established ∨
      s.endpointPhase ≠ some .payloadSent ∨
      (receipt.peerSeq.isSome ∧ s.hasCachedOutboundFrame) then throw .phase
  else do
    let acknowledgement ← (match receipt.peerSeq with
      | some peerSeq => do
        let ack ← Call.ofExcept (ackFrame peerSeq)
        pure [ack]
      | none => pure [] : Call Error (ClaimantSession V) (List ClaimantEffect))
    let _ ← onEndpoint (Endpoint.recoverReceipt receipt.object receipt.authority)
    modify terminate
    pure acknowledgement

end Verified

end ClaimantSession
end CredentialV2
end CbclPairing
