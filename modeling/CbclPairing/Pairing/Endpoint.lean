import CbclPairing.Pairing.CbclProtocol
import CbclPairing.Pairing.Channel
import Mathlib.Data.Fin.VecNotation

/-! The security-state reducer of one version 1 endpoint: invitation consumption,
key confirmation, activation and erasure, decision uniqueness, and the release of
application effects. -/
namespace CbclPairing
namespace Pairing
open Codec Codec.Cbor Calls Wire

def maxPendingControls : ℕ := 16

inductive ReducerError where
  | invitation
  | wrongSide
  | protocol
  | channel
  | recognition
  | phase
  | intentDigest
  | profile
  | decisionConflict
  | terminal
  deriving DecidableEq, Repr

/-! ### Invitation records -/

inductive InvitationStatus where
  | unused
  | bound
  | spent
  deriving DecidableEq, Repr

inductive BindOutcome where
  | bound
  | resumed
  deriving DecidableEq, Repr

structure InvitationRecord where
  invitationDigest : Octets 32
  status : InvitationStatus
  binding : Option (Octets 32)
  deriving DecidableEq

namespace InvitationRecord

def spend (r : InvitationRecord) : InvitationRecord :=
  { r with status := .spent, binding := none }

variable [Primitives]

def new (invitation : Bytes) : InvitationRecord where
  invitationDigest := sha256 invitation
  status := .unused
  binding := none

def attemptBinding (invitationDigest mailboxId : Octets 32)
    (peerCpaceFrame publicContext : Bytes) : Octets 32 :=
  sha256 (toCanonicalVec (.array [.text (ascii "blind-pairing-attempt/v1"),
    .bytes invitationDigest.val, .bytes mailboxId.val, .bytes peerCpaceFrame,
    .bytes publicContext]))

/-- Bind the invitation before the peer's CPace frame is processed. -/
def bind (mailboxId : Octets 32) (peerCpaceFrame publicContext : Bytes) :
    Call ReducerError InvitationRecord BindOutcome := do
  let r ← get
  let binding := attemptBinding r.invitationDigest mailboxId peerCpaceFrame publicContext
  match r.status with
  | .unused => do
    set { r with status := .bound, binding := some binding }
    pure .bound
  | .bound =>
    if r.binding = some binding then pure .resumed
    else do
      set r.spend
      throw .invitation
  | .spent => throw .invitation

end InvitationRecord

/-! ### Application profiles -/

structure DisplayField where
  label : Bytes
  value : Bytes
  claimedBySecretHolder : Bool
  deriving DecidableEq

structure DisplayIntent where
  application : Bytes
  action : Bytes
  authoritySummary : Bytes
  fields : List DisplayField
  deriving DecidableEq

/-- What is kept of an intent after its display. -/
structure ProfileBinding where
  digest : Octets 32
  deriving DecidableEq

structure RecognisedPayload where
  application : Bytes
  payloadType : Bytes
  body : Bytes
  deriving DecidableEq

structure AuthorisedGrant where
  application : Bytes
  payloadType : Bytes
  body : Bytes
  deriving DecidableEq

inductive ProfileError where
  | invalidInvitation
  | wrongApplication
  | invalidAction
  | invalidClaim
  | invalidPayloadType
  | invalidPayload
  | unauthorized
  deriving DecidableEq, Repr

/-- The application contract an endpoint is given, with its own state. -/
class ApplicationProfile (π : Type) where
  recogniseInvitation : π → Invitation → Except ProfileError Unit
  recogniseIntent : PairingIntent → Call ProfileError π (DisplayIntent × ProfileBinding)
  recognisePayload : π → ProfileBinding → ApplicationPayload → Except ProfileError RecognisedPayload
  authorizePayload : RecognisedPayload → Call ProfileError π AuthorisedGrant

/-! ### The reducer -/

inductive EndpointEffect where
  | sendFrame (frame : ChannelFrame)
  | displayIntent (display : DisplayIntent)
  | deliverGrant (grant : AuthorisedGrant)
  | closeMailbox
  deriving DecidableEq

inductive TerminalReason where
  | cancelled
  | expired
  | mailboxClosed
  | mailboxCrowded
  | mailboxConflict
  | declined
  | protocolViolation
  | keyConfirmation
  | channel
  | intentMismatch
  | profile
  | decisionConflict
  | invitationMismatch
  | malformed
  deriving DecidableEq, Repr

structure IntentRecord where
  digest : Octets 32
  controlHash : Bytes
  profileBinding : ProfileBinding
  deriving DecidableEq

structure DecisionRecord where
  decision : Decision
  controlHash : Bytes
  deriving DecidableEq

inductive DecodedApplication where
  | intent (value : PairingIntent)
  | decision (value : PairingDecision)
  | payload (value : ApplicationPayload)
  deriving DecidableEq

def DecodedApplication.performative : DecodedApplication → SessionPerformative
  | .intent _ => .intent
  | .decision value =>
    match value.decision with
    | .approve => .approve
    | .decline => .decline
  | .payload _ => .payload

structure PendingApplication where
  plaintext : SealedPlaintext
  decoded : DecodedApplication
  deriving DecidableEq

/-- The parts of a Finished channel frame. -/
structure FinishedFrame where
  side : Side
  control : Bytes
  value : Octets 64
  deriving DecidableEq

def FinishedFrame.frame (f : FinishedFrame) : ChannelFrame := .finished f.side f.control f.value

/-- The performative of one side's Finished control. -/
def finishedPerformative : Side → BootstrapPerformative
  | .allocator => .finishedA
  | .claimant => .finishedB

structure EndpointReducer [Cbcl] (π : Type) where
  side : Side
  application : Bytes
  ceremony : Bytes
  expectedRoleKeys : Fin 2 → Option (Octets 32)
  profile : π
  record : InvitationRecord
  ceremonyKey : Option CeremonySigningKey
  bootstrap : Option BootstrapMonitor
  pendingChannel : Option PendingChannel
  channel : Option SecureChannel
  session : Option SessionMonitor
  allocatorCpaceHash : Bytes
  claimantCpaceHash : Bytes
  localFinished : Option ChannelFrame
  pendingFinished : Option FinishedFrame
  pendingApplications : List PendingApplication
  intent : Option IntentRecord
  decision : Option DecisionRecord
  payloadControlHash : Option Bytes
  outboundPayloadSent : Bool
  deliveredPayloads : ℕ
  profileVerifications : ℕ
  terminal : Option TerminalReason
  localDeclineCommitted : Bool
  terminalReplayFrameDigest : Option (Octets 32)

def roleIndex : PairingRole → Fin 2
  | .allocator => ⟨0, Nat.two_pos⟩
  | .claimant => ⟨1, Nat.one_lt_two⟩

def orProtocol {α : Type} : Except ProtocolError α → Except ReducerError α :=
  Except.mapError fun _ => .protocol

def orRecognition {α : Type} : Except RecognitionError α → Except ReducerError α :=
  Except.mapError fun _ => .recognition

def channelFrameDigest [Primitives] (frame : ChannelFrame) : Except ReducerError (Octets 32) := do
  .ok (sha256 (← orRecognition (encodeChannelFrame frame)))

/-- The first of the three recognisers that admits a body. -/
def decodeApplication (body : Bytes) : Except ReducerError DecodedApplication :=
  match decodePairingIntent body with
  | .ok value => .ok (.intent value)
  | .error _ =>
    match decodePairingDecision body with
    | .ok value => .ok (.decision value)
    | .error _ =>
      match decodeApplicationPayload body with
      | .ok value => .ok (.payload value)
      | .error _ => .error .recognition

namespace EndpointReducer

variable [Cbcl] {π : Type}

/-- Erase everything secret and spend the invitation. -/
def terminate (reason : TerminalReason) (s : EndpointReducer π) : EndpointReducer π :=
  { s with
    terminal := some reason
    record := s.record.spend
    ceremonyKey := none
    pendingChannel := none
    channel := none
    bootstrap := none
    session := none
    localFinished := none
    pendingFinished := none
    pendingApplications := []
    intent := none
    decision := none
    payloadControlHash := none
    outboundPayloadSent := false }

def fail {α : Type} (reason : TerminalReason) (error : ReducerError) :
    Call ReducerError (EndpointReducer π) α := do
  modify (terminate reason)
  throw error

def ensureLive : Call ReducerError (EndpointReducer π) PUnit := do
  let s ← get
  if s.terminal.isSome then throw .terminal else pure ⟨⟩

def roleKey (s : EndpointReducer π) (role : PairingRole) : Option CeremonyKeyId :=
  s.bootstrap.bind fun monitor => monitor.roleKey role

variable [Primitives]

/-- A bound key of the role has another digest than the invitation expects. -/
def mismatched (s : EndpointReducer π) (role : PairingRole) : Bool :=
  match s.expectedRoleKeys (roleIndex role), s.roleKey role with
  | some expected, some actual =>
    match actual.publicKeyBytes with
    | .ok bytes => sha256 bytes.val ≠ expected
    | .error _ => true
  | _, _ => false

def validateExpectedRoleKeys : Call ReducerError (EndpointReducer π) PUnit := do
  let s ← get
  if s.mismatched .allocator ∨ s.mismatched .claimant then fail .protocolViolation .protocol
  else pure ⟨⟩

/-! ### Calls on the parts -/

def admitBootstrap (performative : BootstrapPerformative) (control body : Bytes) :
    Call ReducerError (EndpointReducer π) (Except ProtocolError Admission) :=
  Call.zoom? .phase (·.bootstrap) (fun monitor s => { s with bootstrap := some monitor })
    (Call.attempt (BootstrapMonitor.admitControl performative control body))

def admitSession (performative : SessionPerformative) (control body : Bytes) :
    Call ReducerError (EndpointReducer π) (Except ProtocolError Admission) :=
  Call.zoom? .phase (·.session) (fun monitor s => { s with session := some monitor })
    (Call.attempt (SessionMonitor.admitControl performative control body))

def openChannel (frame : ChannelFrame) :
    Call ReducerError (EndpointReducer π) (Except ChannelError Bytes) :=
  Call.zoom? .phase (·.channel) (fun channel s => { s with channel := some channel })
    (Call.attempt (SecureChannel.openFrame frame))

def sealChannel (plaintext : Bytes) :
    Call ReducerError (EndpointReducer π) (Except ChannelError ChannelFrame) :=
  Call.zoom? .phase (·.channel) (fun channel s => { s with channel := some channel })
    (Call.attempt (SecureChannel.sealFrame plaintext))

def recogniseIntent [ApplicationProfile π] (intent : PairingIntent) :
    Call ReducerError (EndpointReducer π) (Except ProfileError (DisplayIntent × ProfileBinding)) :=
  Call.zoom (·.profile) (fun profile s => { s with profile })
    (Call.attempt (ApplicationProfile.recogniseIntent intent))

def authorizePayload [ApplicationProfile π] (payload : RecognisedPayload) :
    Call ReducerError (EndpointReducer π) (Except ProfileError AuthorisedGrant) :=
  Call.zoom (·.profile) (fun profile s => { s with profile })
    (Call.attempt (ApplicationProfile.authorizePayload payload))

def sealControl (control : Bytes) (body : Option Bytes) :
    Call ReducerError (EndpointReducer π) ChannelFrame := do
  let plaintext ← Call.ofExcept (orRecognition (encodeSealedPlaintext { control, body }))
  match ← sealChannel plaintext with
  | .ok frame => pure frame
  | .error _ => fail .channel .channel

def admitLocalSession (performative : SessionPerformative) (control body : Bytes) :
    Call ReducerError (EndpointReducer π) Bytes := do
  match ← admitSession performative control body with
  | .error _ => throw .protocol
  | .ok admission =>
    if admission.verdict ≠ .valid then fail .protocolViolation .protocol
    else pure admission.contentHash

/-! ### Key confirmation -/

def admitBootstrapControl (performative : BootstrapPerformative) (control body : Bytes) :
    Call ReducerError (EndpointReducer π) ProtocolVerdict := do
  ensureLive
  match ← admitBootstrap performative control body with
  | .ok admission =>
    if admission.verdict = .violation then fail .protocolViolation .protocol
    else do
      validateExpectedRoleKeys
      pure admission.verdict
  | .error _ => fail .protocolViolation .protocol

/-- Build and admit this endpoint's Finished frame; none while the verdict on it
is unknown. -/
def localFinishedFrame : Call ReducerError (EndpointReducer π) (Option ChannelFrame) := do
  ensureLive
  validateExpectedRoleKeys
  let s ← get
  match s.localFinished with
  | some frame => pure (some frame)
  | none => do
    let pending ← Call.orThrow .phase s.pendingChannel
    let value := pending.localFinished
    let key ← Call.orThrow .phase s.ceremonyKey
    let control ← Call.ofExcept (orProtocol (buildBootstrapControl key
      (finishedPerformative s.side) s.ceremony value.val
      (.multiple [s.allocatorCpaceHash, s.claimantCpaceHash])))
    match ← admitBootstrap (finishedPerformative s.side) control value.val with
    | .error _ => fail .protocolViolation .protocol
    | .ok admission =>
      match admission.verdict with
      | .unknown => pure none
      | .violation => fail .protocolViolation .protocol
      | .valid => do
        let frame := ChannelFrame.finished s.side control value
        modify fun s => { s with localFinished := some frame }
        pure (some frame)

def openAllocatorSession : Call ReducerError (EndpointReducer π) (List EndpointEffect) := do
  let s ← get
  let allocator ← Call.orThrow .phase (s.roleKey .allocator)
  let claimant ← Call.orThrow .phase (s.roleKey .claimant)
  let key ← Call.orThrow .phase s.ceremonyKey
  let opener ← Call.ofExcept (orProtocol (buildSessionOpener key claimant s.ceremony))
  let (session, admission) ← Call.ofExcept (orProtocol
    (SessionMonitor.openForCeremony s.ceremony .allocator allocator claimant opener))
  if admission.verdict ≠ .valid then fail .protocolViolation .protocol
  else do
    modify fun s => { s with session := some session }
    let frame ← sealControl opener none
    pure [.sendFrame frame]

/-- A good Finished value turns the pending channel into the channel and spends the
invitation. -/
def confirmPeer (pending : PendingChannel) (value : Octets 64) :
    Call ReducerError (EndpointReducer π) (List EndpointEffect) := do
  modify fun s => { s with pendingFinished := none, pendingChannel := none }
  match pending.confirm value.val with
  | .error _ => fail .keyConfirmation .channel
  | .ok channel => do
    modify fun s => { s with channel := some channel, record := s.record.spend }
    let s ← get
    if s.side = .allocator then openAllocatorSession else pure []

def receiveFinished (frame : FinishedFrame) :
    Call ReducerError (EndpointReducer π) (List EndpointEffect) := do
  let s ← get
  if frame.side = s.side then fail .protocolViolation .wrongSide
  else if s.localFinished.isNone then fail .protocolViolation .phase
  else
    match s.pendingChannel, s.channel with
    | some pending, none => do
      validateExpectedRoleKeys
      match ← admitBootstrap (finishedPerformative frame.side) frame.control frame.value.val with
      | .error _ => fail .protocolViolation .protocol
      | .ok admission =>
        match admission.verdict with
        | .unknown =>
          if s.pendingFinished.any (· ≠ frame) then fail .protocolViolation .protocol
          else do
            modify fun s => { s with pendingFinished := some frame }
            pure []
        | .violation => fail .protocolViolation .protocol
        | .valid => confirmPeer pending frame.value
    | _, _ => fail .protocolViolation .phase

/-! ### Received application controls -/

/-- Open the claimant's session under exactly the two bound keys. -/
def receiveOpener (plaintext : SealedPlaintext) :
    Call ReducerError (EndpointReducer π) (List EndpointEffect) := do
  let s ← get
  if s.side ≠ .claimant ∨ plaintext.body.isSome then fail .protocolViolation .protocol
  else do
    let allocator ← Call.orThrow .phase (s.roleKey .allocator)
    let claimant ← Call.orThrow .phase (s.roleKey .claimant)
    match SessionMonitor.openForCeremony s.ceremony .claimant allocator claimant
      plaintext.control with
    | .error _ => fail .protocolViolation .protocol
    | .ok (session, admission) =>
      if admission.verdict ≠ .valid then fail .protocolViolation .protocol
      else do
        modify fun s => { s with session := some session }
        pure []

def applyDecision (value : PairingDecision) (controlHash : Bytes) :
    Call ReducerError (EndpointReducer π) (List EndpointEffect) := do
  let s ← get
  if s.side ≠ .allocator then fail .protocolViolation .protocol
  else do
    let intent ← Call.orThrow .phase s.intent
    if value.intentDigest ≠ intent.digest then fail .intentMismatch .intentDigest
    else
      match s.decision with
      | some existing =>
        if existing.decision = value.decision ∧ existing.controlHash = controlHash then pure []
        else fail .decisionConflict .decisionConflict
      | none => do
        modify fun s => { s with decision := some ⟨value.decision, controlHash⟩ }
        match value.decision with
        | .decline => do
          modify (terminate .declined)
          pure [.closeMailbox]
        | .approve => pure []

variable [ApplicationProfile π]

def applyIntent (value : PairingIntent) (controlHash : Bytes) :
    Call ReducerError (EndpointReducer π) (List EndpointEffect) := do
  let s ← get
  if s.side ≠ .claimant ∨ value.application.val ≠ s.application then
    fail .intentMismatch .intentDigest
  else do
    let encoded ← Call.ofExcept (orRecognition (encodePairingIntent value))
    match ← recogniseIntent value with
    | .error _ => fail .profile .profile
    | .ok (display, profileBinding) =>
      match s.intent with
      | some existing =>
        if existing.digest = sha256 encoded ∧ existing.controlHash = controlHash then pure []
        else fail .intentMismatch .intentDigest
      | none => do
        modify fun s => { s with intent := some ⟨sha256 encoded, controlHash, profileBinding⟩ }
        pure [.displayIntent display]

def applyPayload (value : ApplicationPayload) (controlHash : Bytes) :
    Call ReducerError (EndpointReducer π) (List EndpointEffect) := do
  let s ← get
  if s.side ≠ .claimant then fail .protocolViolation .protocol
  else do
    let intent ← Call.orThrow .phase s.intent
    if value.intentDigest ≠ intent.digest ∨ s.decision.map (·.decision) ≠ some .approve then
      fail .intentMismatch .intentDigest
    else
      match s.payloadControlHash with
      | some existing =>
        if existing = controlHash then pure [] else fail .protocolViolation .protocol
      | none =>
        match ApplicationProfile.recognisePayload s.profile intent.profileBinding value with
        | .error _ => fail .profile .profile
        | .ok recognised => do
          modify fun s => { s with profileVerifications := s.profileVerifications + 1 }
          match ← authorizePayload recognised with
          | .error _ => fail .profile .profile
          | .ok grant => do
            modify fun s =>
              { s with
                payloadControlHash := some controlHash
                deliveredPayloads := s.deliveredPayloads + 1 }
            pure [.deliverGrant grant]

def applyApplication (decoded : DecodedApplication) (controlHash : Bytes) :
    Call ReducerError (EndpointReducer π) (List EndpointEffect) :=
  match decoded with
  | .intent value => applyIntent value controlHash
  | .decision value => applyDecision value controlHash
  | .payload value => applyPayload value controlHash

/-- One pass over the pending controls: those still unknown, whether one became
valid, and the effects so far. -/
def retryPass (next : List PendingApplication) (progress : Bool) (emitted : List EndpointEffect) :
    List PendingApplication → Call ReducerError (EndpointReducer π)
      (List PendingApplication × Bool × List EndpointEffect)
  | [] => pure (next, progress, emitted)
  | pending :: remaining => do
    let body ← Call.orThrow .recognition pending.plaintext.body
    match ← admitSession pending.decoded.performative pending.plaintext.control body with
    | .error _ => throw .protocol
    | .ok admission =>
      match admission.verdict with
      | .unknown => retryPass (next ++ [pending]) progress emitted remaining
      | .violation => do
        modify fun s => { s with pendingApplications := next }
        fail .protocolViolation .protocol
      | .valid => do
        let effects ← applyApplication pending.decoded admission.contentHash
        retryPass next true (emitted ++ effects) remaining

/-- Passes until one makes no progress; each pass with progress leaves fewer
controls, so as many as there are controls and one more are enough. -/
def retryRounds : ℕ → List PendingApplication → List EndpointEffect →
    Call ReducerError (EndpointReducer π) (List EndpointEffect)
  | 0, remaining, emitted => do
    modify fun s => { s with pendingApplications := remaining }
    pure emitted
  | rounds + 1, remaining, emitted => do
    let (next, progress, emitted) ← retryPass [] false emitted remaining
    if progress then retryRounds rounds next emitted
    else do
      modify fun s => { s with pendingApplications := next }
      pure emitted

def retryPending : Call ReducerError (EndpointReducer π) (List EndpointEffect) := do
  let s ← get
  set { s with pendingApplications := [] }
  retryRounds (s.pendingApplications.length + 1) s.pendingApplications []

def admitApplication (plaintext : SealedPlaintext) (decoded : DecodedApplication) :
    Call ReducerError (EndpointReducer π) (List EndpointEffect) := do
  let body ← Call.orThrow .recognition plaintext.body
  match ← admitSession decoded.performative plaintext.control body with
  | .error _ => fail .protocolViolation .protocol
  | .ok admission =>
    match admission.verdict with
    | .violation => fail .protocolViolation .protocol
    | .unknown => do
      let s ← get
      let pending : PendingApplication := ⟨plaintext, decoded⟩
      if pending ∈ s.pendingApplications then pure []
      else if s.pendingApplications.length = maxPendingControls then
        fail .protocolViolation .protocol
      else do
        set { s with pendingApplications := s.pendingApplications ++ [pending] }
        pure []
    | .valid => do
      let effects ← applyApplication decoded admission.contentHash
      let more ← retryPending
      pure (effects ++ more)

/-- After a decline the digest of the frame is kept, so that its exact replay is
answered without effects. -/
def receiveApplication (plaintext : SealedPlaintext) (frameDigest : Octets 32) :
    Call ReducerError (EndpointReducer π) (List EndpointEffect) :=
  match plaintext.body with
  | none => fail .malformed .recognition
  | some body =>
    match decodeApplication body with
    | .error error => fail .malformed error
    | .ok decoded => do
      let effects ← admitApplication plaintext decoded
      modify fun s =>
        if s.terminal = some .declined then { s with terminalReplayFrameDigest := some frameDigest }
        else s
      pure effects

def receiveSealed (frame : ChannelFrame) :
    Call ReducerError (EndpointReducer π) (List EndpointEffect) := do
  let frameDigest ← Call.ofExcept (channelFrameDigest frame)
  match ← openChannel frame with
  | .error _ => fail .channel .channel
  | .ok plaintextBytes =>
    match decodeSealedPlaintext plaintextBytes with
    | .error _ => fail .malformed .recognition
    | .ok plaintext => do
      let s ← get
      if s.session.isNone then receiveOpener plaintext
      else receiveApplication plaintext frameDigest

/-! ### Public operations -/

/-- A frame as the replay check compares it: its digest, if it has one. -/
def replays (s : EndpointReducer π) (frame : ChannelFrame) : Prop :=
  s.terminalReplayFrameDigest = (channelFrameDigest frame).toOption

instance (s : EndpointReducer π) (frame : ChannelFrame) : Decidable (s.replays frame) :=
  inferInstanceAs (Decidable (_ = _))

def receiveFrame (frame : ChannelFrame) :
    Call ReducerError (EndpointReducer π) (List EndpointEffect) := do
  let s ← get
  if s.terminal.isSome then
    if s.terminal = some .declined ∧ s.replays frame then pure [] else throw .terminal
  else
    match frame with
    | .finished side control value => receiveFinished ⟨side, control, value⟩
    | .sealed .. => receiveSealed frame
    | .cpace .. => fail .protocolViolation .phase

def cancel : Call ReducerError (EndpointReducer π) (List EndpointEffect) := do
  ensureLive
  modify (terminate .cancelled)
  pure [.closeMailbox]

def closedReason : CloseReason → TerminalReason
  | .closed => .mailboxClosed
  | .crowded => .mailboxCrowded
  | .expired => .expired
  | .conflict => .mailboxConflict

def relayClosed (reason : CloseReason) :
    Call ReducerError (EndpointReducer π) (List EndpointEffect) := do
  ensureLive
  modify (terminate (closedReason reason))
  pure [.closeMailbox]

def retryPendingFinished : Call ReducerError (EndpointReducer π) (List EndpointEffect) := do
  ensureLive
  let s ← get
  match s.pendingFinished with
  | some frame => receiveFinished frame
  | none => pure []

def sendIntent (intent : PairingIntent) : Call ReducerError (EndpointReducer π) ChannelFrame := do
  ensureLive
  let s ← get
  if s.side ≠ .allocator ∨ s.intent.isSome then throw .phase
  else if intent.application.val ≠ s.application then fail .intentMismatch .intentDigest
  else do
    match ← recogniseIntent intent with
    | .error _ => throw .profile
    | .ok (_, profileBinding) => do
      let body ← Call.ofExcept (orRecognition (encodePairingIntent intent))
      let session ← Call.orThrow .phase s.session
      let claimant ← Call.orThrow .phase (s.roleKey .claimant)
      let key ← Call.orThrow .phase s.ceremonyKey
      let control ← Call.ofExcept (orProtocol (buildSessionControl key .intent s.ceremony claimant
        body (.single session.rootHash)))
      let controlHash ← admitLocalSession .intent control body
      let frame ← sealControl control (some body)
      modify fun s => { s with intent := some ⟨sha256 body, controlHash, profileBinding⟩ }
      pure frame

def decisionPerformative : Decision → SessionPerformative
  | .approve => .approve
  | .decline => .decline

/-- Commit and seal a first decision. -/
def commitDecision (decision : Decision) (intent : IntentRecord) :
    Call ReducerError (EndpointReducer π) (List EndpointEffect) := do
  let s ← get
  let body ← Call.ofExcept (orRecognition (encodePairingDecision ⟨intent.digest, decision⟩))
  let allocator ← Call.orThrow .phase (s.roleKey .allocator)
  let key ← Call.orThrow .phase s.ceremonyKey
  let control ← Call.ofExcept (orProtocol (buildSessionControl key (decisionPerformative decision)
    s.ceremony allocator body (.single intent.controlHash)))
  let controlHash ← admitLocalSession (decisionPerformative decision) control body
  let frame ← sealControl control (some body)
  modify fun s => { s with decision := some ⟨decision, controlHash⟩ }
  match decision with
  | .decline => do
    modify fun s => terminate .declined { s with localDeclineCommitted := true }
    pure [.sendFrame frame, .closeMailbox]
  | .approve => pure [.sendFrame frame]

def decide (decision : Decision) : Call ReducerError (EndpointReducer π) (List EndpointEffect) := do
  let s ← get
  if s.terminal.isSome then
    if s.terminal = some .declined ∧ s.localDeclineCommitted ∧ decision = .decline then pure []
    else throw .terminal
  else if s.side ≠ .claimant then throw .phase
  else
    match s.decision with
    | some existing =>
      if existing.decision = decision then pure []
      else fail .decisionConflict .decisionConflict
    | none => do
      let intent ← Call.orThrow .phase s.intent
      commitDecision decision intent

def sendPayload (payload : ApplicationPayload) :
    Call ReducerError (EndpointReducer π) ChannelFrame := do
  ensureLive
  let s ← get
  if s.side ≠ .allocator then throw .phase
  else do
    let intent ← Call.orThrow .phase s.intent
    let decision ← Call.orThrow .phase s.decision
    if decision.decision ≠ .approve then throw .phase
    else if payload.intentDigest ≠ intent.digest then throw .intentDigest
    else if s.outboundPayloadSent then throw .phase
    else do
      let _ ← Call.ofExcept ((ApplicationProfile.recognisePayload s.profile intent.profileBinding
        payload).mapError fun _ => .profile)
      let body ← Call.ofExcept (orRecognition (encodeApplicationPayload payload))
      let claimant ← Call.orThrow .phase (s.roleKey .claimant)
      let key ← Call.orThrow .phase s.ceremonyKey
      let control ← Call.ofExcept (orProtocol (buildSessionControl key .payload s.ceremony claimant
        body (.single decision.controlHash)))
      let _ ← admitLocalSession .payload control body
      let frame ← sealControl control (some body)
      modify fun s => { s with outboundPayloadSent := true }
      pure frame

/-- Compose the components of one bound attempt. `isRootOrigin` is the URL parser's
answer on a relay origin. -/
def new (isRootOrigin : Bytes → Bool) (side : Side) (invitation : Bytes)
    (record : InvitationRecord) (ceremonyKey : CeremonySigningKey) (bootstrap : BootstrapMonitor)
    (pendingChannel : PendingChannel) (allocatorCpaceHash claimantCpaceHash : Bytes)
    (profile : π) : Except ReducerError (EndpointReducer π) :=
  if record.status ≠ .bound ∨ record.invitationDigest ≠ sha256 invitation then .error .invitation
  else do
    let value ← orRecognition (decodeInvitation isRootOrigin invitation)
    match ApplicationProfile.recogniseInvitation profile value with
    | .error _ => .error .profile
    | .ok _ => do
      let endpoint : EndpointReducer π :=
        { side, application := value.application.val, ceremony := ceremonyId invitation
          expectedRoleKeys := ![value.expectedAllocatorKey, value.expectedClaimantKey]
          profile, record, ceremonyKey := some ceremonyKey, bootstrap := some bootstrap
          pendingChannel := some pendingChannel, channel := none, session := none
          allocatorCpaceHash, claimantCpaceHash, localFinished := none, pendingFinished := none
          pendingApplications := [], intent := none, decision := none, payloadControlHash := none
          outboundPayloadSent := false, deliveredPayloads := 0, profileVerifications := 0
          terminal := none, localDeclineCommitted := false, terminalReplayFrameDigest := none }
      if endpoint.mismatched .allocator ∨ endpoint.mismatched .claimant then .error .protocol
      else .ok endpoint

/-- A call on the reducer. -/
inductive Operation where
  | admitBootstrapControl (performative : BootstrapPerformative) (control body : Bytes)
  | localFinishedFrame
  | receiveFrame (frame : ChannelFrame)
  | cancel
  | relayClosed (reason : CloseReason)
  | retryPendingFinished
  | sendIntent (intent : PairingIntent)
  | decide (decision : Decision)
  | sendPayload (payload : ApplicationPayload)
  deriving DecidableEq

/-- What a successful call returns. -/
inductive Reply where
  | verdict (verdict : ProtocolVerdict)
  | finished (frame : Option ChannelFrame)
  | effects (effects : List EndpointEffect)
  | frame (frame : ChannelFrame)
  deriving DecidableEq

def run : Operation → Call ReducerError (EndpointReducer π) Reply
  | .admitBootstrapControl performative control body =>
    .verdict <$> EndpointReducer.admitBootstrapControl performative control body
  | .localFinishedFrame => .finished <$> EndpointReducer.localFinishedFrame
  | .receiveFrame frame => .effects <$> EndpointReducer.receiveFrame frame
  | .cancel => .effects <$> EndpointReducer.cancel
  | .relayClosed reason => .effects <$> EndpointReducer.relayClosed reason
  | .retryPendingFinished => .effects <$> EndpointReducer.retryPendingFinished
  | .sendIntent intent => .frame <$> EndpointReducer.sendIntent intent
  | .decide decision => .effects <$> EndpointReducer.decide decision
  | .sendPayload payload => .frame <$> EndpointReducer.sendPayload payload

end EndpointReducer
end Pairing
end CbclPairing
