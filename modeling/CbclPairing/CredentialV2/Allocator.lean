import CbclPairing.CredentialV2.Bootstrap

/-! The relay-driven allocator session with its persistence barrier. -/
namespace CbclPairing
namespace CredentialV2
open Codec Codec.Cbor Calls

/-- Effects whose ordering is the shell's responsibility. -/
inductive AllocatorEffect where
  | send (message : ClientMessage)
  | checkpoint (generation : UInt64) (checkpoint carrier : Bytes)
  | pendingAllocation (carrier : Bytes)
  | established (transcriptHash : Octets 64)
  | receivedObject (object : Object)
  | terminal
  deriving DecidableEq

variable [Primitives]

structure AllocatorInput where
  mode : AllocatorMode
  applicationContext : Bytes
  relayOrigin : Bytes
  mailboxId : Octets 32
  carrierCeremonyId : Octets 32
  carrierNonce : Octets 32
  cpaceSecret : Octets 16
  claimToken : ClaimToken
  cpaceScalar : Octets 32
  profileDigest : Octets 32
  expectedAllocatorKey : Option (Octets 32)
  checkpointWrappingKey : Octets 32

inductive AllocatorState (V : Type) where
  | awaitWelcome
  | awaitAllocation
  | bootstrap (b : Bootstrap)
  | established (s : Established V)
  | terminal

structure AllocatorSession (V : Type) where
  template : Carrier
  presence : Option Presence
  cpaceScalar : Option (Octets 32)
  mode : AllocatorMode
  profileDigest : Octets 32
  claimCommitment : Octets 32
  wrappingKey : Octets 32
  bodyVerifier : Option V
  state : AllocatorState V
  persistenceGate : Option UInt64
  afterPersist : List AllocatorEffect
  resumeAfterWelcome : Bool

namespace AllocatorSession

variable {V : Type}

/-- Validate one attempt before any relay message is released. -/
def new (input : AllocatorInput) (bodyVerifier : V) : Except Error (AllocatorSession V) :=
  if input.mode = .manual ∧ !manualSecret input.cpaceSecret then .error .schema
  else if input.mode = .manual ∧ input.expectedAllocatorKey.isNone then .error .profile
  else do
    let commitment := CbclPairing.claimCommitment input.mailboxId input.claimToken
    let template ← Carrier.new
      { applicationContext := input.applicationContext, relayOrigin := input.relayOrigin
        mailboxId := input.mailboxId, carrierCeremonyId := input.carrierCeremonyId
        carrierNonce := input.carrierNonce, claimCommitment := commitment
        relayExpiresAt := 0xffffffffffffffff, expectedAllocatorKey := input.expectedAllocatorKey }
    pure
      { template, presence := some (Presence.new input.cpaceSecret input.claimToken)
        cpaceScalar := some input.cpaceScalar, mode := input.mode
        profileDigest := input.profileDigest, claimCommitment := commitment
        wrappingKey := input.checkpointWrappingKey, bodyVerifier := some bodyVerifier
        state := .awaitWelcome, persistenceGate := none, afterPersist := []
        resumeAfterWelcome := false }

def terminate (s : AllocatorSession V) : AllocatorSession V :=
  { s with
    state := .terminal, presence := none, cpaceScalar := none
    wrappingKey := Octets.replicate 32 0, afterPersist := [] }

def bootstrap? (s : AllocatorSession V) : Option Bootstrap :=
  match s.state with
  | .bootstrap b => some b
  | _ => none

def established? (s : AllocatorSession V) : Option (Established V) :=
  match s.state with
  | .established e => some e
  | _ => none

def onBootstrap {α : Type} (m : Call Error Bootstrap α) : Call Error (AllocatorSession V) α :=
  Call.zoom? .phase bootstrap? (fun b s => { s with state := .bootstrap b }) m

def onEstablished {α : Type} (m : Call Error (Established V) α) :
    Call Error (AllocatorSession V) α :=
  Call.zoom? .phase established? (fun e s => { s with state := .established e }) m

/-- Run a call and terminate the session when it fails. -/
def guarded {α : Type} (m : Call Error (AllocatorSession V) α) :
    Call Error (AllocatorSession V) α := fun s =>
  match m s with
  | .ok a s' => .ok a s'
  | .error e s' => .error e s'.terminate

def start (s : AllocatorSession V) : Except Error ClientMessage :=
  match s.state with
  | .awaitWelcome =>
    if s.persistenceGate.isSome then .error .phase else relayMessage .bind
  | _ =>
    if !s.resumeAfterWelcome ∨ s.persistenceGate.isSome then .error .phase else relayMessage .bind

def putFrame (sequence : UInt8) (frame : Frame) : Except Error AllocatorEffect := do
  let message ← putMessage sequence frame
  pure (.send message)

def ackFrame (peerSeq : UInt8) : Except Error AllocatorEffect := do
  let message ← relayMessage (.ack peerSeq)
  pure (.send message)

/-- Hold back the effects a checkpoint covers until it is durable. -/
def gate (generation : UInt64) (checkpoint carrier : Bytes) (after : List AllocatorEffect) :
    Call Error (AllocatorSession V) (List AllocatorEffect) := do
  let s ← get
  set { s with persistenceGate := some generation }
  if s.persistenceGate.isSome ∨ s.afterPersist ≠ [] then throw .phase
  else do
    modify fun s => { s with afterPersist := after }
    pure [.checkpoint generation checkpoint carrier]

def checkpointBootstrap (now : UInt64) (nonce : Octets 12) (after : List AllocatorEffect) :
    Call Error (AllocatorSession V) (List AllocatorEffect) := do
  let s ← get
  let b ← Call.orThrow .phase s.bootstrap?
  let generation := saturatingSucc b.checkpointGeneration
  let checkpoint ← onBootstrap (Bootstrap.sealCheckpoint s.wrappingKey generation nonce now)
  gate generation checkpoint (encodeCarrier b.carrier) after

section Verified

variable [BodyVerifier V]

def checkpointEstablished (now : UInt64) (nonce : Octets 12) (after : List AllocatorEffect) :
    Call Error (AllocatorSession V) (List AllocatorEffect) := do
  let s ← get
  let e ← Call.orThrow .phase s.established?
  let generation := saturatingSucc e.endpoint.checkpointGeneration
  let checkpoint ← onEstablished (Established.onEndpoint (Endpoint.sealCheckpoint e.channel e.relay
    s.wrappingKey generation (some e.endpoint.carrier.relayExpiresAt) nonce now))
  gate generation checkpoint (encodeCarrier e.endpoint.carrier) after

/-- Restore a bootstrap or an established endpoint. The fresh scalar is kept only
before the first peer share. -/
def restore (checkpoint : Bytes) (wrappingKey : Octets 32) (carrier : Carrier)
    (expectedGeneration : UInt64) (expectedProfileDigest : Octets 32) (now : UInt64)
    (expectedMode : AllocatorMode) (freshCpaceScalar : Octets 32) (bodyVerifier : V) :
    Except Error (AllocatorSession V) :=
  match Bootstrap.restoreCheckpoint checkpoint wrappingKey carrier expectedGeneration now
    expectedMode with
  | .ok b =>
    if b.profileDigest ≠ expectedProfileDigest then .error .profile
    else .ok
      { template := carrier, presence := none
        cpaceScalar := if b.phase = .allocated then some freshCpaceScalar else none
        mode := expectedMode, profileDigest := expectedProfileDigest
        claimCommitment := carrier.claimCommitment, wrappingKey, bodyVerifier := some bodyVerifier
        state := .bootstrap b, persistenceGate := none, afterPersist := []
        resumeAfterWelcome := true }
  | .error _ => do
    let e ← Endpoint.restoreCheckpoint checkpoint wrappingKey .allocator carrier expectedGeneration
      now bodyVerifier
    pure
      { template := carrier, presence := none, cpaceScalar := none, mode := expectedMode
        profileDigest := expectedProfileDigest, claimCommitment := carrier.claimCommitment
        wrappingKey, bodyVerifier := none, state := .established e, persistenceGate := none
        afterPersist := [], resumeAfterWelcome := true }

/-- What recovery sends once the relay has welcomed it. -/
def reopenEffects (s : AllocatorSession V) : Except Error (List AllocatorEffect) := do
  let (carrier, relay, cached) ← (match s.state with
    | .bootstrap b =>
      match b.cachedOutbound with
      | some frame => do
        let sequence ← b.relay.cachedBootstrapSequence
        .ok (b.carrier, b.relay, sequence.map fun sequence => (frame, sequence))
      | none => .ok (b.carrier, b.relay, none)
    | .established e =>
      match e.relay.cachedOutbound with
      | some frame => do
        let sequence ← e.relay.cachedApplicationSequence
        .ok (e.endpoint.carrier, e.relay, some (frame, sequence))
      | none => .ok (e.endpoint.carrier, e.relay, none)
    | _ => .error .phase : Except Error (Carrier × RelayState × Option (Frame × UInt8)))
  let opening ← relayMessage (.openMailbox carrier.mailboxId relay.membershipToken)
  match cached with
  | some (frame, sequence) => do
    let put ← putFrame sequence frame
    .ok [.send opening, put]
  | none => .ok [.send opening]

def allocated (mailboxId membershipToken : Octets 32) (expiresAt now : UInt64)
    (nonce : Octets 12) : Call Error (AllocatorSession V) (List AllocatorEffect) := do
  let s ← get
  if mailboxId ≠ s.template.mailboxId ∨ expiresAt ≤ now then throw .profile
  else do
    let carrier ← Call.ofExcept (Carrier.new
      { applicationContext := s.template.applicationContext, relayOrigin := s.template.relayOrigin
        mailboxId, carrierCeremonyId := s.template.carrierCeremonyId
        carrierNonce := s.template.carrierNonce, claimCommitment := s.claimCommitment
        relayExpiresAt := expiresAt, expectedAllocatorKey := s.template.expectedAllocatorKey })
    let presence ← Call.orThrow .phase s.presence
    let b ← Call.ofExcept (Bootstrap.new carrier presence s.profileDigest
      (RelayState.new membershipToken) s.mode)
    set { s with presence := none, state := .bootstrap b }
    checkpointBootstrap now nonce [.pendingAllocation (encodeCarrier carrier)]

/-- The first share arrives: admit the claimant, answer with the own share and
pin both. -/
def firstShare (peerSeq : UInt8) (frame : Frame) (scalar : Octets 32) :
    Call Error Bootstrap (UInt8 × Frame) := do
  Bootstrap.onRelay (RelayState.acceptPeerSequence peerSeq)
  Bootstrap.claimantAdmitted
  let outbound ← Bootstrap.startCpace scalar
  Bootstrap.retainPeerCpace frame
  let sequence ← Bootstrap.onRelay RelayState.queueBootstrapFrame
  pure (sequence, outbound)

/-- A lost acknowledgement may bring the exact first share again. -/
def repeatedShare (b : Bootstrap) (peerSeq : UInt8) (frame : Frame) (now : UInt64) :
    Except Error (List AllocatorEffect) :=
  if b.carrier.relayExpiresAt ≤ now then .error .expired
  else if b.peerCpace ≠ some frame then .error .profile
  else do
    let ack ← ackFrame peerSeq
    match ← b.relay.cachedBootstrapSequence with
    | none => .ok [ack]
    | some sequence => do
      match b.cachedOutbound with
      | none => .error .phase
      | some cached => do
        let put ← putFrame sequence cached
        .ok [ack, put]

def peerFinished (peerSeq : UInt8) (frame : Frame) : Call Error Bootstrap Bool := do
  Bootstrap.onRelay (RelayState.acceptPeerSequence peerSeq)
  Bootstrap.retainPeerFinished frame
  let b ← get
  pure b.relay.awaitingAck

/-- Confirm both Finished values and hand over to the application endpoint. -/
def establish (now : UInt64) (nonce : Octets 12) (ack : Option AllocatorEffect) :
    Call Error (AllocatorSession V) (List AllocatorEffect) := do
  let s ← get
  set { s with state := .terminal }
  let b ← Call.orThrow .phase s.bootstrap?
  let peerFinished ← Call.orThrow .finished b.peerFinished
  let (channel, relay) ← Call.ofExcept (b.confirm peerFinished)
  if relay.awaitingAck then throw .phase
  else do
    let bodyVerifier ← Call.orThrow .phase s.bodyVerifier
    modify fun s => { s with bodyVerifier := none }
    let endpoint : Endpoint V :=
      { Endpoint.new .allocator b.carrier bodyVerifier with
        checkpointGeneration := b.checkpointGeneration, checkpointNonce := b.checkpointNonce }
    let generation := saturatingSucc b.checkpointGeneration
    match Endpoint.sealCheckpoint channel relay s.wrappingKey generation
      (some b.carrier.relayExpiresAt) nonce now endpoint with
    | .error e _ => throw e
    | .ok checkpoint endpoint => do
      modify fun s => { s with state := .established ⟨endpoint, channel, relay⟩ }
      gate generation checkpoint (encodeCarrier b.carrier)
        (ack.toList ++ [.established channel.transcriptHash])

/-- Open, recognise and apply one peer object. -/
def openPeerObject (peerSeq : UInt8) (frame : Frame) : Call Error (Established V) Object := do
  Established.onRelay (RelayState.acceptPeerSequence peerSeq)
  let plaintext ← Established.onChannel (SecureChannel.openFrame frame)
  let object ← Call.ofExcept (decodeObject plaintext)
  let _ ← Established.onEndpoint (Endpoint.receive object)
  pure object

def peerApplicationFrame (peerSeq : UInt8) (frame : Frame) (now : UInt64) (nonce : Octets 12) :
    Call Error (AllocatorSession V) (List AllocatorEffect) := do
  let object ← onEstablished (openPeerObject peerSeq frame)
  let ack ← Call.ofExcept (ackFrame peerSeq)
  checkpointEstablished now nonce [ack, .receivedObject object]

def peerFrame (peerSeq : UInt8) (body : Bytes) (now : UInt64) (nonce : Octets 12) :
    Call Error (AllocatorSession V) (List AllocatorEffect) := do
  let frame ← Call.ofExcept (decodeFrame body)
  let s ← get
  match s.state with
  | .established _ => peerApplicationFrame peerSeq frame now nonce
  | .bootstrap b =>
    if peerSeq = 0 ∧ b.peerCpace.isSome then Call.ofExcept (repeatedShare b peerSeq frame now)
    else
      match b.phase with
      | .allocated => do
        let scalar ← Call.orThrow .phase s.cpaceScalar
        modify fun s => { s with cpaceScalar := none }
        let (sequence, outbound) ← onBootstrap (firstShare peerSeq frame scalar)
        let ack ← Call.ofExcept (ackFrame peerSeq)
        let put ← Call.ofExcept (putFrame sequence outbound)
        checkpointBootstrap now nonce [ack, put]
      | .finishedSent => do
        let waiting ← onBootstrap (peerFinished peerSeq frame)
        let ack ← Call.ofExcept (ackFrame peerSeq)
        if waiting then checkpointBootstrap now nonce [ack] else establish now nonce (some ack)
      | _ => throw .phase
  | _ => throw .phase

/-- The own share is acknowledged: the Finished value takes its place. -/
def finishedNext (sequence : UInt8) : Call Error Bootstrap (UInt8 × Frame) := do
  Bootstrap.onRelay (RelayState.acknowledgeBootstrapFrame sequence)
  let finished ← Bootstrap.prepareFinished
  let next ← Bootstrap.onRelay RelayState.queueBootstrapFrame
  pure (next, finished)

def finishedAcknowledged (sequence : UInt8) : Call Error Bootstrap Bool := do
  Bootstrap.onRelay (RelayState.acknowledgeBootstrapFrame sequence)
  let b ← get
  pure b.peerFinished.isSome

def applicationAcknowledged (sequence : UInt8) (now : UInt64) (nonce : Octets 12) :
    Call Error (AllocatorSession V) (List AllocatorEffect) := do
  onEstablished (Established.onRelay (RelayState.acknowledgeApplicationFrame sequence))
  checkpointEstablished now nonce []

/-- An acknowledgement seen before changes nothing, but not after the expiry. -/
def repeatedAcknowledgement (expiry now : UInt64) : Except Error (List AllocatorEffect) :=
  if expiry ≤ now then .error .expired else .ok []

def localAcknowledged (sequence : UInt8) (now : UInt64) (nonce : Octets 12) :
    Call Error (AllocatorSession V) (List AllocatorEffect) := do
  let s ← get
  match s.state with
  | .established e =>
    if e.relay.acknowledgementAlreadyApplied sequence then
      Call.ofExcept (repeatedAcknowledgement e.endpoint.carrier.relayExpiresAt now)
    else applicationAcknowledged sequence now nonce
  | .bootstrap b =>
    if b.relay.acknowledgementAlreadyApplied sequence then
      Call.ofExcept (repeatedAcknowledgement b.carrier.relayExpiresAt now)
    else
      match b.phase with
      | .shareSent => do
        let (next, finished) ← onBootstrap (finishedNext sequence)
        let put ← Call.ofExcept (putFrame next finished)
        checkpointBootstrap now nonce [put]
      | .finishedSent => do
        let hasPeer ← onBootstrap (finishedAcknowledged sequence)
        if hasPeer then establish now nonce none else checkpointBootstrap now nonce []
      | _ => throw .phase
  | _ => throw .phase

def welcomed : Call Error (AllocatorSession V) (List AllocatorEffect) := do
  let s ← get
  if s.resumeAfterWelcome then do
    set { s with resumeAfterWelcome := false }
    Call.ofExcept s.reopenEffects
  else
    match s.state with
    | .awaitWelcome => do
      set { s with state := .awaitAllocation }
      let message ← Call.ofExcept (relayMessage
        (.allocateV2 s.template.mailboxId s.claimCommitment (some 900)))
      pure [.send message]
    | _ => throw .phase

def applyServer (message : ServerMessage) (now : UInt64) (nonce : Octets 12) :
    Call Error (AllocatorSession V) (List AllocatorEffect) := do
  match message with
  | .welcome => welcomed
  | .allocatedV2 mailboxId membershipToken expiresAt => do
    let s ← get
    match s.state with
    | .awaitAllocation => allocated mailboxId membershipToken expiresAt now nonce
    | _ => throw .phase
  | .frame peerSeq body => peerFrame peerSeq body now nonce
  | .acknowledged seq => localAcknowledged seq now nonce
  | .pong => pure []
  | .closed _ | .error _ => do
    modify terminate
    pure [.terminal]
  | _ => throw .phase

/-- Apply one complete relay response. -/
def receive (input : ServerInput) (now : UInt64) (nonce : Octets 12) :
    Call Error (AllocatorSession V) (List AllocatorEffect) := do
  let s ← get
  if s.persistenceGate.isSome then throw .phase
  else guarded (match input with
    | .error _ => throw .schema
    | .ok message => applyServer message.val now nonce)

/-- Confirm durable storage and release only the effects it covers. -/
def checkpointPersisted (generation : UInt64) :
    Call Error (AllocatorSession V) (List AllocatorEffect) := do
  let s ← get
  if s.persistenceGate ≠ some generation then throw .counter
  else do
    set { s with persistenceGate := none, afterPersist := [] }
    pure s.afterPersist

def prepareApplicationObjectInner (object : Object) (now : UInt64) (nonce : Octets 12) :
    Call Error (AllocatorSession V) (List AllocatorEffect) := do
  let (sequence, frame) ← onEstablished (do
    let frame ← Established.prepareOutbound object
    let s ← get
    let sequence ← Call.ofExcept s.relay.cachedApplicationSequence
    pure (sequence, frame))
  let put ← Call.ofExcept (putFrame sequence frame)
  checkpointEstablished now nonce [put]

/-- Seal and checkpoint one application object before the relay sees it. -/
def prepareApplicationObject (object : Object) (now : UInt64) (nonce : Octets 12) :
    Call Error (AllocatorSession V) (List AllocatorEffect) := do
  let s ← get
  if s.persistenceGate.isSome then throw .phase
  else guarded (prepareApplicationObjectInner object now nonce)

end Verified

end AllocatorSession
end CredentialV2
end CbclPairing
