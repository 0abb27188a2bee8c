import CbclPairing.CredentialV2.Allocator

/-! What one call of an allocator session can do: release directly, or move and
seal. -/
namespace CbclPairing
namespace CredentialV2
open Codec Codec.Cbor Calls

variable [Primitives]

/-! ### The parts of a call -/

namespace Established

variable {V : Type}

theorem onEndpoint_eq_ok {α : Type} {m : Call Error (Endpoint V) α} {s s' : Established V} {a : α} :
    onEndpoint m s = .ok a s' ↔ ∃ endpoint, m s.endpoint = .ok a endpoint ∧
      s' = { s with endpoint } := by
  rw [onEndpoint, Call.zoom_eq_ok]
  simp only [eq_comm (a := s')]

theorem onChannel_eq_ok {α : Type} {m : Call Error SecureChannel α} {s s' : Established V} {a : α} :
    onChannel m s = .ok a s' ↔ ∃ channel, m s.channel = .ok a channel ∧
      s' = { s with channel } := by
  rw [onChannel, Call.zoom_eq_ok]
  simp only [eq_comm (a := s')]

theorem onRelay_eq_ok {α : Type} {m : Call Error RelayState α} {s s' : Established V} {a : α} :
    onRelay m s = .ok a s' ↔ ∃ relay, m s.relay = .ok a relay ∧ s' = { s with relay } := by
  rw [onRelay, Call.zoom_eq_ok]
  simp only [eq_comm (a := s')]

variable [BodyVerifier V]

/-- A frame leaves the endpoint either from the cache or newly sealed. -/
theorem prepareOutbound_eq_ok {object : Object} {frame : Frame} {s s' : Established V} :
    prepareOutbound object s = .ok frame s' ↔ s.channel.localSide = s.endpoint.side ∧
      ((s.relay.cachedOutbound = some frame ∧
          s.endpoint.exactRetransmission object s.endpoint.side = true ∧ s' = s) ∨
        (s.relay.cachedOutbound = none ∧ s.channel.canSeal object.bytes = .ok () ∧
          ∃ endpoint channel relay, Endpoint.send object s.endpoint = .ok .advanced endpoint ∧
            SecureChannel.sealFrame object.bytes s.channel = .ok frame channel ∧
            RelayState.cacheApplicationFrame frame s.relay = .ok () relay ∧
            s' = ⟨endpoint, channel, relay⟩)) := by
  unfold prepareOutbound
  rw [Call.run_bind (Call.run_get s), Call.guard_eq_ok, not_not]
  refine and_congr_right fun _ => ?_
  cases hcached : s.relay.cachedOutbound with
  | some cached =>
    dsimp only
    by_cases hagain : s.endpoint.exactRetransmission object s.endpoint.side = true
    · rw [if_pos hagain]
      simp [hagain, eq_comm]
    · rw [if_neg hagain]
      simp [hagain]
  | none =>
    simp only [Call.bind_eq_ok, Call.ofExcept_eq_ok, onEndpoint_eq_ok, onChannel_eq_ok,
      onRelay_eq_ok, Call.guard_eq_ok, Call.pure_eq_ok]
    constructor
    · rintro ⟨_, _, ⟨hseal, rfl⟩, advance, _, ⟨endpoint, hsend, rfl⟩, hadvance, _, _,
        ⟨channel, hframe, rfl⟩, _, _, ⟨relay, hcache, rfl⟩, rfl, rfl⟩
      obtain rfl := not_not.mp hadvance
      exact .inr ⟨trivial, hseal, endpoint, channel, relay, hsend, hframe, hcache, rfl⟩
    · rintro (⟨h, -⟩ | ⟨-, hseal, endpoint, channel, relay, hsend, hframe, hcache, rfl⟩)
      · simp at h
      · exact ⟨(), s, ⟨hseal, rfl⟩, .advanced, _, ⟨endpoint, hsend, rfl⟩, by simp, frame, _,
          ⟨channel, hframe, rfl⟩, (), _, ⟨relay, hcache, rfl⟩, rfl, rfl⟩

end Established

namespace AllocatorSession

variable {V : Type}

omit [Primitives] in
theorem putFrame_eq_ok {sequence : UInt8} {frame : Frame} {effect : AllocatorEffect} :
    putFrame sequence frame = .ok effect ↔ ∃ body, encodeFrame frame = .ok body ∧
      ClientMessage.recognised (.put sequence body) = true ∧ effect = .send (.put sequence body) := by
  simp only [putFrame, Calls.except_bind_eq_ok, putMessage_eq_ok, pure, Except.pure,
    Except.ok.injEq]
  constructor
  · rintro ⟨_, ⟨body, hbody, hput, rfl⟩, rfl⟩
    exact ⟨body, hbody, hput, rfl⟩
  · rintro ⟨body, hbody, hput, rfl⟩
    exact ⟨_, ⟨body, hbody, hput, rfl⟩, rfl⟩

omit [Primitives] in
theorem ackFrame_eq_ok {peerSeq : UInt8} {effect : AllocatorEffect} :
    ackFrame peerSeq = .ok effect ↔ ClientMessage.recognised (.ack peerSeq) = true ∧
      effect = .send (.ack peerSeq) := by
  simp only [ackFrame, Calls.except_bind_eq_ok, relayMessage_eq_ok, pure, Except.pure,
    Except.ok.injEq]
  constructor
  · rintro ⟨_, ⟨hack, rfl⟩, rfl⟩
    exact ⟨hack, rfl⟩
  · rintro ⟨hack, rfl⟩
    exact ⟨_, ⟨hack, rfl⟩, rfl⟩

theorem firstShare_eq_ok {peerSeq sequence : UInt8} {frame outbound : Frame} {scalar : Octets 32}
    {b b' : Bootstrap} :
    firstShare peerSeq frame scalar b = .ok (sequence, outbound) b' ↔
      ∃ relay relay' state, RelayState.acceptPeerSequence peerSeq b.relay = .ok () relay ∧
        RelayState.queueBootstrapFrame relay = .ok sequence relay' ∧
        b.phase = .allocated ∧ b.presence.claimToken.isSome = true ∧
        { b with presence := { b.presence with claimToken := none } }.share scalar =
          .ok (state, outbound) ∧
        Bootstrap.cpaceFrom .claimant frame = true ∧
        (∀ retained ∈ b.peerCpace, retained = frame) ∧
        b' = { b with
          presence := { b.presence with claimToken := none }, relay := relay', phase := .shareSent
          freshScalar := some scalar, peerCpace := some frame, cachedOutbound := some outbound } := by
  simp only [firstShare, Call.bind_eq_ok, Bootstrap.onRelay_eq_ok, Bootstrap.claimantAdmitted_eq_ok,
    Bootstrap.startCpace_eq_ok, Bootstrap.retainPeerCpace_eq_ok, Call.pure_eq_ok, Prod.mk.injEq]
  constructor
  · rintro ⟨_, _, ⟨relay, haccept, rfl⟩, _, _, ⟨hphase, hclaim, rfl⟩, _, _,
      ⟨-, state, hshare, rfl⟩, _, _, ⟨-, hfrom, hretained, rfl⟩, _, _, ⟨relay', hqueue, rfl⟩,
      ⟨rfl, rfl⟩, rfl⟩
    exact ⟨relay, relay', state, haccept, hqueue, hphase, hclaim, hshare, hfrom, hretained, rfl⟩
  · rintro ⟨relay, relay', state, haccept, hqueue, hphase, hclaim, hshare, hfrom, hretained, rfl⟩
    exact ⟨(), _, ⟨relay, haccept, rfl⟩, (), _, ⟨hphase, hclaim, rfl⟩, outbound, _,
      ⟨rfl, state, hshare, rfl⟩, (), _, ⟨rfl, hfrom, hretained, rfl⟩, sequence, _,
      ⟨relay', hqueue, rfl⟩, ⟨rfl, rfl⟩, rfl⟩

theorem peerFinished_eq_ok {peerSeq : UInt8} {frame : Frame} {waiting : Bool} {b b' : Bootstrap} :
    peerFinished peerSeq frame b = .ok waiting b' ↔
      ∃ relay, RelayState.acceptPeerSequence peerSeq b.relay = .ok () relay ∧
        b.phase = .finishedSent ∧ Bootstrap.finishedFrom .claimant frame = true ∧
        (∀ retained ∈ b.peerFinished, retained = frame) ∧ waiting = relay.awaitingAck ∧
        b' = { b with relay, peerFinished := some frame } := by
  simp only [peerFinished, Call.bind_eq_ok, Bootstrap.onRelay_eq_ok,
    Bootstrap.retainPeerFinished_eq_ok, Call.get_eq_ok, Call.pure_eq_ok]
  constructor
  · rintro ⟨_, _, ⟨relay, haccept, rfl⟩, _, _, ⟨hphase, hfrom, hretained, rfl⟩, _, _, ⟨rfl, rfl⟩,
      rfl, rfl⟩
    exact ⟨relay, haccept, hphase, hfrom, hretained, rfl, rfl⟩
  · rintro ⟨relay, haccept, hphase, hfrom, hretained, rfl, rfl⟩
    exact ⟨(), _, ⟨relay, haccept, rfl⟩, (), _, ⟨hphase, hfrom, hretained, rfl⟩, _, _, ⟨rfl, rfl⟩,
      rfl, rfl⟩

theorem finishedNext_eq_ok {sequence next : UInt8} {finished : Frame} {b b' : Bootstrap} :
    finishedNext sequence b = .ok (next, finished) b' ↔
      ∃ relay b₁ relay', RelayState.acknowledgeBootstrapFrame sequence b.relay = .ok () relay ∧
        Bootstrap.prepareFinished { b with relay } = .ok finished b₁ ∧
        RelayState.queueBootstrapFrame b₁.relay = .ok next relay' ∧
        b' = { b₁ with relay := relay' } := by
  simp only [finishedNext, Call.bind_eq_ok, Bootstrap.onRelay_eq_ok, Call.pure_eq_ok,
    Prod.mk.injEq]
  constructor
  · rintro ⟨_, _, ⟨relay, hack, rfl⟩, _, b₁, hprepare, _, _, ⟨relay', hqueue, rfl⟩, ⟨rfl, rfl⟩, rfl⟩
    exact ⟨relay, b₁, relay', hack, hprepare, hqueue, rfl⟩
  · rintro ⟨relay, b₁, relay', hack, hprepare, hqueue, rfl⟩
    exact ⟨(), _, ⟨relay, hack, rfl⟩, finished, b₁, hprepare, next, _, ⟨relay', hqueue, rfl⟩,
      ⟨rfl, rfl⟩, rfl⟩

theorem finishedAcknowledged_eq_ok {sequence : UInt8} {hasPeer : Bool} {b b' : Bootstrap} :
    finishedAcknowledged sequence b = .ok hasPeer b' ↔
      ∃ relay, RelayState.acknowledgeBootstrapFrame sequence b.relay = .ok () relay ∧
        hasPeer = b.peerFinished.isSome ∧ b' = { b with relay } := by
  simp only [finishedAcknowledged, Call.bind_eq_ok, Bootstrap.onRelay_eq_ok, Call.get_eq_ok,
    Call.pure_eq_ok]
  constructor
  · rintro ⟨_, _, ⟨relay, hack, rfl⟩, _, _, ⟨rfl, rfl⟩, rfl, rfl⟩
    exact ⟨relay, hack, rfl, rfl⟩
  · rintro ⟨relay, hack, rfl, rfl⟩
    exact ⟨(), _, ⟨relay, hack, rfl⟩, _, _, ⟨rfl, rfl⟩, rfl, rfl⟩

/-- Nothing is held back. -/
structure Idle (s : AllocatorSession V) : Prop where
  ungated : s.persistenceGate = none
  empty : s.afterPersist = []

theorem gate_eq_ok {generation : UInt64} {checkpoint carrier : Bytes}
    {after effects : List AllocatorEffect} {s s' : AllocatorSession V} :
    gate generation checkpoint carrier after s = .ok effects s' ↔
      s.persistenceGate = none ∧ s.afterPersist = [] ∧
      effects = [.checkpoint generation checkpoint carrier] ∧
      s' = { s with persistenceGate := some generation, afterPersist := after } := by
  simp only [gate, Call.bind_eq_ok, Call.get_eq_ok, Call.set_eq_ok, Call.guard_eq_ok,
    Call.modify_eq_ok, Call.pure_eq_ok, not_or, ne_eq, not_not, Bool.not_eq_true,
    Option.isSome_eq_false_iff, Option.isNone_iff_eq_none]
  constructor
  · rintro ⟨_, _, ⟨rfl, rfl⟩, _, _, rfl, ⟨hgate, hafter⟩, _, _, rfl, rfl, rfl⟩
    exact ⟨hgate, hafter, rfl, rfl⟩
  · rintro ⟨hgate, hafter, rfl, rfl⟩
    exact ⟨s, s, ⟨rfl, rfl⟩, ⟨⟩, _, rfl, ⟨hgate, hafter⟩, ⟨⟩, _, rfl, rfl, rfl⟩

theorem checkpointPersisted_eq_ok {generation : UInt64} {effects : List AllocatorEffect}
    {s s' : AllocatorSession V} :
    checkpointPersisted generation s = .ok effects s' ↔ s.persistenceGate = some generation ∧
      effects = s.afterPersist ∧ s' = { s with persistenceGate := none, afterPersist := [] } := by
  simp only [checkpointPersisted, Call.bind_eq_ok, Call.get_eq_ok, Call.guard_eq_ok,
    Call.set_eq_ok, Call.pure_eq_ok, not_not]
  constructor
  · rintro ⟨_, _, ⟨rfl, rfl⟩, hgate, _, _, rfl, rfl, rfl⟩
    exact ⟨hgate, rfl, rfl⟩
  · rintro ⟨hgate, rfl, rfl⟩
    exact ⟨s, s, ⟨rfl, rfl⟩, hgate, ⟨⟩, _, rfl, rfl, rfl⟩

theorem bootstrap?_eq_some {s : AllocatorSession V} {b : Bootstrap} :
    s.bootstrap? = some b ↔ s.state = .bootstrap b := by
  unfold bootstrap?
  cases s.state <;> simp

theorem established?_eq_some {s : AllocatorSession V} {e : Established V} :
    s.established? = some e ↔ s.state = .established e := by
  unfold established?
  cases s.state <;> simp

theorem onBootstrap_eq_ok {α : Type} {m : Call Error Bootstrap α} {s s' : AllocatorSession V}
    {a : α} : onBootstrap m s = .ok a s' ↔ ∃ b b', s.state = .bootstrap b ∧ m b = .ok a b' ∧
      s' = { s with state := .bootstrap b' } := by
  rw [onBootstrap, Call.zoom?_eq_ok]
  simp only [bootstrap?_eq_some, eq_comm (a := s')]

theorem onEstablished_eq_ok {α : Type} {m : Call Error (Established V) α}
    {s s' : AllocatorSession V} {a : α} : onEstablished m s = .ok a s' ↔
      ∃ e e', s.state = .established e ∧ m e = .ok a e' ∧
        s' = { s with state := .established e' } := by
  rw [onEstablished, Call.zoom?_eq_ok]
  simp only [established?_eq_some, eq_comm (a := s')]

variable [BodyVerifier V]

theorem openPeerObject_eq_ok {peerSeq : UInt8} {frame : Frame} {object : Object}
    {s s' : Established V} :
    openPeerObject peerSeq frame s = .ok object s' ↔ ∃ relay plaintext channel advance endpoint,
      RelayState.acceptPeerSequence peerSeq s.relay = .ok () relay ∧
      SecureChannel.openFrame frame s.channel = .ok plaintext channel ∧
      decodeObject plaintext = .ok object ∧
      Endpoint.receive object s.endpoint = .ok advance endpoint ∧
      s' = ⟨endpoint, channel, relay⟩ := by
  simp only [openPeerObject, Call.bind_eq_ok, Established.onRelay_eq_ok,
    Established.onChannel_eq_ok, Established.onEndpoint_eq_ok, Call.ofExcept_eq_ok,
    Call.pure_eq_ok]
  constructor
  · rintro ⟨_, _, ⟨relay, haccept, rfl⟩, plaintext, _, ⟨channel, hopen, rfl⟩, _, _, ⟨hobject, rfl⟩,
      advance, _, ⟨endpoint, hreceive, rfl⟩, rfl, rfl⟩
    exact ⟨relay, plaintext, channel, advance, endpoint, haccept, hopen, hobject, hreceive, rfl⟩
  · rintro ⟨relay, plaintext, channel, advance, endpoint, haccept, hopen, hobject, hreceive, rfl⟩
    exact ⟨(), _, ⟨relay, haccept, rfl⟩, plaintext, _, ⟨channel, hopen, rfl⟩, object, _,
      ⟨hobject, rfl⟩, advance, _, ⟨endpoint, hreceive, rfl⟩, rfl, rfl⟩

/-! ### Transitions, seals and direct releases -/

/-- What a session is asked to act on: a relay message or an own object. -/
inductive Cause where
  | message (m : ServerMessage)
  | object (o : Object)

/-- A move towards the next checkpoint: the session with its state not yet sealed,
and the effects that checkpoint will cover. -/
inductive Transition (s : AllocatorSession V) :
    Cause → AllocatorSession V → List AllocatorEffect → Prop
  | allocation {carrier : Carrier} {presence : Presence} {b : Bootstrap}
      {membershipToken : Octets 32} {expiresAt : UInt64} : s.state = .awaitAllocation →
      s.presence = some presence →
      carrier.toCarrierInput = { s.template.toCarrierInput with
        claimCommitment := s.claimCommitment, relayExpiresAt := expiresAt } →
      Bootstrap.new carrier presence s.profileDigest (RelayState.new membershipToken) s.mode = .ok b →
      Transition s (.message (.allocatedV2 s.template.mailboxId membershipToken expiresAt))
        { s with presence := none, state := .bootstrap b }
        [.pendingAllocation (encodeCarrier carrier)]
  | shared {b b' : Bootstrap} {scalar : Octets 32} {peerSeq sequence : UInt8} {body : Bytes}
      {frame outbound : Frame} {ack put : AllocatorEffect} : s.state = .bootstrap b →
      b.phase = .allocated → s.cpaceScalar = some scalar → decodeFrame body = .ok frame →
      firstShare peerSeq frame scalar b = .ok (sequence, outbound) b' →
      ackFrame peerSeq = .ok ack → putFrame sequence outbound = .ok put →
      Transition s (.message (.frame peerSeq body))
        { s with cpaceScalar := none, state := .bootstrap b' } [ack, put]
  | shareAcknowledged {b b' : Bootstrap} {sequence next : UInt8} {finished : Frame}
      {put : AllocatorEffect} : s.state = .bootstrap b → b.phase = .shareSent →
      finishedNext sequence b = .ok (next, finished) b' → putFrame next finished = .ok put →
      Transition s (.message (.acknowledged sequence)) { s with state := .bootstrap b' } [put]
  | finishedAcknowledged {b b' : Bootstrap} {sequence : UInt8} : s.state = .bootstrap b →
      b.phase = .finishedSent → AllocatorSession.finishedAcknowledged sequence b = .ok false b' →
      Transition s (.message (.acknowledged sequence)) { s with state := .bootstrap b' } []
  | peerFinished {b b' : Bootstrap} {peerSeq : UInt8} {body : Bytes} {frame : Frame}
      {ack : AllocatorEffect} : s.state = .bootstrap b → b.phase = .finishedSent →
      decodeFrame body = .ok frame →
      AllocatorSession.peerFinished peerSeq frame b = .ok true b' → ackFrame peerSeq = .ok ack →
      Transition s (.message (.frame peerSeq body)) { s with state := .bootstrap b' } [ack]
  | established {cause : Cause} {b b' : Bootstrap} {frame : Frame} {channel : SecureChannel}
      {relay : RelayState} {v : V} {ack : Option AllocatorEffect} : s.state = .bootstrap b →
      b.phase = .finishedSent →
      ((ack = none ∧ ∃ sequence, cause = .message (.acknowledged sequence) ∧
          AllocatorSession.finishedAcknowledged sequence b = .ok true b') ∨
        (∃ peerSeq body peerFrame effect, cause = .message (.frame peerSeq body) ∧
          decodeFrame body = .ok peerFrame ∧ ack = some effect ∧ ackFrame peerSeq = .ok effect ∧
          AllocatorSession.peerFinished peerSeq peerFrame b = .ok false b')) →
      b'.peerFinished = some frame → b'.confirm frame = .ok (channel, relay) →
      relay.awaitingAck = false → s.bodyVerifier = some v →
      Transition s cause
        { s with
          bodyVerifier := none
          state := .established
            ⟨{ Endpoint.new .allocator b'.carrier v with
                checkpointGeneration := b'.checkpointGeneration
                checkpointNonce := b'.checkpointNonce }, channel, relay⟩ }
        (ack.toList ++ [.established channel.transcriptHash])
  | sent {e e' : Established V} {object : Object} {frame : Frame} {sequence : UInt8}
      {put : AllocatorEffect} : s.state = .established e →
      Established.prepareOutbound object e = .ok frame e' →
      e'.relay.cachedApplicationSequence = .ok sequence → putFrame sequence frame = .ok put →
      Transition s (.object object) { s with state := .established e' } [put]
  | received {e e' : Established V} {object : Object} {body : Bytes} {frame : Frame}
      {peerSeq : UInt8} {ack : AllocatorEffect} : s.state = .established e →
      decodeFrame body = .ok frame →
      openPeerObject peerSeq frame e = .ok object e' → ackFrame peerSeq = .ok ack →
      Transition s (.message (.frame peerSeq body)) { s with state := .established e' }
        [ack, .receivedObject object]
  | acknowledged {e : Established V} {relay : RelayState} {sequence : UInt8} :
      s.state = .established e →
      RelayState.acknowledgeApplicationFrame sequence e.relay = .ok () relay →
      Transition s (.message (.acknowledged sequence))
        { s with state := .established { e with relay } } []

/-- Sealing a state: the generation, the checkpoint with its carrier, and the
stamped state. -/
inductive Seals (key : Octets 32) (now : UInt64) (nonce : Octets 12) :
    AllocatorState V → UInt64 → Bytes → Bytes → AllocatorState V → Prop
  | bootstrap {b b' : Bootstrap} {checkpoint : Bytes} :
      Bootstrap.sealCheckpoint key (saturatingSucc b.checkpointGeneration) nonce now b =
        .ok checkpoint b' →
      Seals key now nonce (.bootstrap b) (saturatingSucc b.checkpointGeneration) checkpoint
        (encodeCarrier b.carrier) (.bootstrap b')
  | established {e : Established V} {endpoint : Endpoint V} {checkpoint : Bytes} :
      Endpoint.sealCheckpoint e.channel e.relay key
        (saturatingSucc e.endpoint.checkpointGeneration) (some e.endpoint.carrier.relayExpiresAt)
        nonce now e.endpoint = .ok checkpoint endpoint →
      Seals key now nonce (.established e) (saturatingSucc e.endpoint.checkpointGeneration)
        checkpoint (encodeCarrier e.endpoint.carrier) (.established { e with endpoint })

/-- A sealed move: one checkpoint alone, and the covered effects behind the gate. -/
def Sealed (s₁ : AllocatorSession V) (after : List AllocatorEffect) (now : UInt64)
    (nonce : Octets 12) (effects : List AllocatorEffect) (s' : AllocatorSession V) : Prop :=
  ∃ generation checkpoint carrier state',
    Seals s₁.wrappingKey now nonce s₁.state generation checkpoint carrier state' ∧
    effects = [.checkpoint generation checkpoint carrier] ∧
    s' = { s₁ with
      state := state', persistenceGate := some generation, afterPersist := after }

/-- The calls that release without a checkpoint. -/
inductive Direct (s : AllocatorSession V) : List AllocatorEffect → AllocatorSession V → Prop
  | silent : Direct s [] s
  | reopened {effects : List AllocatorEffect} : s.resumeAfterWelcome = true →
      s.reopenEffects = .ok effects → Direct s effects { s with resumeAfterWelcome := false }
  | requested : s.state = .awaitWelcome →
      Direct s [.send (.allocateV2 s.template.mailboxId s.claimCommitment (some 900))]
        { s with state := .awaitAllocation }
  | repeated {b : Bootstrap} {frame : Frame} {now : UInt64} {effects : List AllocatorEffect} :
      s.state = .bootstrap b → b.peerCpace.isSome = true →
      repeatedShare b 0 frame now = .ok effects → Direct s effects s
  | closed : Direct s [.terminal] s.terminate

/-- What a successful ungated call did. -/
inductive Outcome (s : AllocatorSession V) (cause : Cause) (now : UInt64) (nonce : Octets 12)
    (effects : List AllocatorEffect) (s' : AllocatorSession V) : Prop
  | direct : Direct s effects s' → Outcome s cause now nonce effects s'
  | moved {s₁ : AllocatorSession V} {after : List AllocatorEffect} :
      Transition s cause s₁ after → Sealed s₁ after now nonce effects s' →
      Outcome s cause now nonce effects s'

theorem checkpointBootstrap_eq_ok {now : UInt64} {nonce : Octets 12}
    {after effects : List AllocatorEffect} {s s' : AllocatorSession V}
    (h : checkpointBootstrap now nonce after s = .ok effects s') :
    Sealed s after now nonce effects s' := by
  simp only [checkpointBootstrap, Call.bind_eq_ok, Call.get_eq_ok, Call.orThrow_eq_ok,
    bootstrap?_eq_some, onBootstrap_eq_ok, gate_eq_ok] at h
  obtain ⟨_, _, ⟨rfl, rfl⟩, b, _, ⟨hstate, rfl⟩, checkpoint, _, ⟨b₁, b', hstate₁, hseal, rfl⟩, -, -,
    rfl, rfl⟩ := h
  obtain rfl : b = b₁ := by
    rw [hstate] at hstate₁
    exact AllocatorState.bootstrap.inj hstate₁
  exact ⟨_, checkpoint, _, _, by rw [hstate]; exact .bootstrap hseal, rfl, rfl⟩

theorem checkpointEstablished_eq_ok {now : UInt64} {nonce : Octets 12}
    {after effects : List AllocatorEffect} {s s' : AllocatorSession V}
    (h : checkpointEstablished now nonce after s = .ok effects s') :
    Sealed s after now nonce effects s' := by
  simp only [checkpointEstablished, Call.bind_eq_ok, Call.get_eq_ok, Call.orThrow_eq_ok,
    established?_eq_some, onEstablished_eq_ok, Established.onEndpoint_eq_ok, gate_eq_ok] at h
  obtain ⟨_, _, ⟨rfl, rfl⟩, e, _, ⟨hstate, rfl⟩, checkpoint, _,
    ⟨e₁, _, hstate₁, ⟨endpoint, hseal, rfl⟩, rfl⟩, -, -, rfl, rfl⟩ := h
  obtain rfl : e = e₁ := by
    rw [hstate] at hstate₁
    exact AllocatorState.established.inj hstate₁
  exact ⟨_, checkpoint, _, _, by rw [hstate]; exact .established hseal, rfl, rfl⟩

/-! ### Every successful call -/

omit [BodyVerifier V] in
theorem guarded_eq_ok {α : Type} {m : Call Error (AllocatorSession V) α}
    {s s' : AllocatorSession V} {a : α} : guarded m s = .ok a s' ↔ m s = .ok a s' := by
  unfold guarded
  cases m s <;> simp

theorem establish_eq_ok {now : UInt64} {nonce : Octets 12} {ack : Option AllocatorEffect}
    {effects : List AllocatorEffect} {s s' : AllocatorSession V}
    (h : establish now nonce ack s = .ok effects s') :
    ∃ b frame channel relay v, s.state = .bootstrap b ∧ b.peerFinished = some frame ∧
      b.confirm frame = .ok (channel, relay) ∧ relay.awaitingAck = false ∧
      s.bodyVerifier = some v ∧
      Sealed { s with
          bodyVerifier := none
          state := .established ⟨{ Endpoint.new .allocator b.carrier v with
            checkpointGeneration := b.checkpointGeneration
            checkpointNonce := b.checkpointNonce }, channel, relay⟩ }
        (ack.toList ++ [.established channel.transcriptHash]) now nonce effects s' := by
  simp only [establish, Call.bind_eq_ok, Call.get_eq_ok, Call.set_eq_ok, Call.orThrow_eq_ok,
    Call.ofExcept_eq_ok, bootstrap?_eq_some, Call.guard_eq_ok, Prod.exists, Call.modify_eq_ok] at h
  obtain ⟨_, _, ⟨rfl, rfl⟩, _, _, rfl, b, _, ⟨hstate, rfl⟩, frame, _, ⟨hframe, rfl⟩, channel, relay,
    _, ⟨hconfirm, rfl⟩, hawait, v, _, ⟨hverifier, rfl⟩, _, _, rfl, h⟩ := h
  refine ⟨b, frame, channel, relay, v, hstate, hframe, hconfirm, by simpa using hawait, hverifier, ?_⟩
  cases hseal : Endpoint.sealCheckpoint channel relay s.wrappingKey
      (saturatingSucc b.checkpointGeneration) (some b.carrier.relayExpiresAt) nonce now
      { Endpoint.new .allocator b.carrier v with
        checkpointGeneration := b.checkpointGeneration, checkpointNonce := b.checkpointNonce } with
  | error e endpoint => simp [hseal] at h
  | ok checkpoint endpoint =>
    simp only [hseal, Call.bind_eq_ok, Call.modify_eq_ok, gate_eq_ok] at h
    obtain ⟨_, _, rfl, -, -, rfl, rfl⟩ := h
    exact ⟨_, checkpoint, _, _, .established hseal, rfl, rfl⟩

omit [Primitives] in
theorem repeatedAcknowledgement_eq_ok {expiry now : UInt64} {effects : List AllocatorEffect} :
    repeatedAcknowledgement expiry now = .ok effects ↔ ¬expiry ≤ now ∧ effects = [] := by
  unfold repeatedAcknowledgement
  by_cases h : expiry ≤ now
  · simp [h]
  · simp [h, eq_comm]

theorem prepareApplicationObject_outcome {object : Object} {now : UInt64} {nonce : Octets 12}
    {effects : List AllocatorEffect} {s s' : AllocatorSession V}
    (h : prepareApplicationObject object now nonce s = .ok effects s') :
    s.persistenceGate = none ∧ Outcome s (.object object) now nonce effects s' := by
  simp only [prepareApplicationObject, Call.bind_eq_ok, Call.get_eq_ok, Call.guard_eq_ok,
    guarded_eq_ok] at h
  obtain ⟨_, _, ⟨rfl, rfl⟩, hgate, h⟩ := h
  simp only [prepareApplicationObjectInner, Call.bind_eq_ok, onEstablished_eq_ok, Call.get_eq_ok,
    Call.ofExcept_eq_ok, Call.pure_eq_ok, Prod.exists, Prod.mk.injEq] at h
  obtain ⟨_, _, _, ⟨e, e', hstate, ⟨frame, _, hprepare, _, _, ⟨rfl, rfl⟩, sequence, _,
    ⟨hsequence, rfl⟩, ⟨rfl, rfl⟩, rfl⟩, rfl⟩, put, _, ⟨hput, rfl⟩, h⟩ := h
  exact ⟨by simpa using hgate, .moved (.sent hstate hprepare hsequence hput)
    (checkpointEstablished_eq_ok h)⟩

theorem allocated_outcome {mailboxId membershipToken : Octets 32} {expiresAt now : UInt64}
    {nonce : Octets 12} {effects : List AllocatorEffect} {s s' : AllocatorSession V}
    (hstate : s.state = .awaitAllocation)
    (h : allocated mailboxId membershipToken expiresAt now nonce s = .ok effects s') :
    Outcome s (.message (.allocatedV2 mailboxId membershipToken expiresAt)) now nonce effects s' := by
  simp only [allocated, Call.bind_eq_ok, Call.get_eq_ok, Call.guard_eq_ok, Call.ofExcept_eq_ok,
    Call.orThrow_eq_ok, Call.set_eq_ok] at h
  obtain ⟨_, _, ⟨rfl, rfl⟩, hbound, carrier, _, ⟨hcarrier, rfl⟩, presence, _, ⟨hpresence, rfl⟩, b, _,
    ⟨hnew, rfl⟩, _, _, rfl, h⟩ := h
  simp only [not_or, ne_eq, not_not] at hbound
  have hinput := Carrier.toCarrierInput_of_new hcarrier
  obtain rfl := hbound.1
  exact .moved (.allocation hstate hpresence hinput hnew) (checkpointBootstrap_eq_ok h)

theorem peerFrame_outcome {peerSeq : UInt8} {body : Bytes} {now : UInt64} {nonce : Octets 12}
    {effects : List AllocatorEffect} {s s' : AllocatorSession V}
    (h : peerFrame peerSeq body now nonce s = .ok effects s') :
    Outcome s (.message (.frame peerSeq body)) now nonce effects s' := by
  simp only [peerFrame, Call.bind_eq_ok, Call.get_eq_ok, Call.ofExcept_eq_ok] at h
  obtain ⟨frame, _, ⟨hframe, rfl⟩, _, _, ⟨rfl, rfl⟩, h⟩ := h
  cases hstate : s.state with
  | established e =>
    simp only [hstate, peerApplicationFrame, Call.bind_eq_ok, onEstablished_eq_ok,
      Call.ofExcept_eq_ok] at h
    obtain ⟨object, _, ⟨e₁, e', he, hopen, rfl⟩, ack, _, ⟨hack, rfl⟩, h⟩ := h
    exact .moved (.received (hstate.trans he) hframe hopen hack) (checkpointEstablished_eq_ok h)
  | bootstrap b =>
    simp only [hstate] at h
    by_cases hagain : peerSeq = 0 ∧ b.peerCpace.isSome = true
    · rw [if_pos hagain, Call.ofExcept_eq_ok] at h
      obtain ⟨hrepeat, rfl⟩ := h
      rw [hagain.1] at hrepeat
      exact .direct (.repeated hstate hagain.2 hrepeat)
    rw [if_neg hagain] at h
    cases hphase : b.phase with
    | allocated =>
      simp only [hphase, Call.bind_eq_ok, Call.orThrow_eq_ok, Call.modify_eq_ok, onBootstrap_eq_ok,
        Call.ofExcept_eq_ok, Prod.exists] at h
      obtain ⟨scalar, _, ⟨hscalar, rfl⟩, _, _, rfl, sequence, outbound, _, ⟨b₁, b', hb, hshare, rfl⟩,
        ack, _, ⟨hack, rfl⟩, put, _, ⟨hput, rfl⟩, h⟩ := h
      obtain rfl : b = b₁ := AllocatorState.bootstrap.inj (hstate.symm.trans hb)
      exact .moved (.shared hstate hphase hscalar hframe hshare hack hput)
        (checkpointBootstrap_eq_ok h)
    | finishedSent =>
      simp only [hphase, Call.bind_eq_ok, onBootstrap_eq_ok, Call.ofExcept_eq_ok] at h
      obtain ⟨waiting, _, ⟨b₁, b', hb, hpeer, rfl⟩, ack, _, ⟨hack, rfl⟩, h⟩ := h
      obtain rfl : b = b₁ := AllocatorState.bootstrap.inj (hstate.symm.trans hb)
      cases waiting with
      | true =>
        exact .moved (.peerFinished hstate hphase hframe hpeer hack) (checkpointBootstrap_eq_ok h)
      | false =>
        obtain ⟨b₂, finished, channel, relay, v, hb₂, hfinished, hconfirm, hawait, hverifier, h⟩ :=
          establish_eq_ok h
        obtain rfl : b' = b₂ := AllocatorState.bootstrap.inj hb₂
        exact .moved (.established hstate hphase
          (.inr ⟨_, _, _, ack, rfl, hframe, rfl, hack, hpeer⟩) hfinished hconfirm hawait hverifier) h
    | claimed => simp [hphase] at h
    | shareSent => simp [hphase] at h
  | awaitWelcome => simp [hstate] at h
  | awaitAllocation => simp [hstate] at h
  | terminal => simp [hstate] at h

theorem localAcknowledged_outcome {sequence : UInt8} {now : UInt64} {nonce : Octets 12}
    {effects : List AllocatorEffect} {s s' : AllocatorSession V}
    (h : localAcknowledged sequence now nonce s = .ok effects s') :
    Outcome s (.message (.acknowledged sequence)) now nonce effects s' := by
  simp only [localAcknowledged, Call.bind_eq_ok, Call.get_eq_ok] at h
  obtain ⟨_, _, ⟨rfl, rfl⟩, h⟩ := h
  cases hstate : s.state with
  | established e =>
    simp only [hstate] at h
    by_cases hagain : e.relay.acknowledgementAlreadyApplied sequence = true
    · rw [if_pos hagain, Call.ofExcept_eq_ok, repeatedAcknowledgement_eq_ok] at h
      obtain ⟨⟨-, rfl⟩, rfl⟩ := h
      exact .direct .silent
    rw [if_neg hagain] at h
    simp only [applicationAcknowledged, Call.bind_eq_ok, onEstablished_eq_ok,
      Established.onRelay_eq_ok] at h
    obtain ⟨_, _, ⟨e₁, _, he, ⟨relay, hack, rfl⟩, rfl⟩, h⟩ := h
    obtain rfl : e = e₁ := AllocatorState.established.inj (hstate.symm.trans he)
    exact .moved (.acknowledged hstate hack) (checkpointEstablished_eq_ok h)
  | bootstrap b =>
    simp only [hstate] at h
    by_cases hagain : b.relay.acknowledgementAlreadyApplied sequence = true
    · rw [if_pos hagain, Call.ofExcept_eq_ok, repeatedAcknowledgement_eq_ok] at h
      obtain ⟨⟨-, rfl⟩, rfl⟩ := h
      exact .direct .silent
    rw [if_neg hagain] at h
    cases hphase : b.phase with
    | shareSent =>
      simp only [hphase, Call.bind_eq_ok, onBootstrap_eq_ok, Call.ofExcept_eq_ok, Prod.exists] at h
      obtain ⟨next, finished, _, ⟨b₁, b', hb, hnext, rfl⟩, put, _, ⟨hput, rfl⟩, h⟩ := h
      obtain rfl : b = b₁ := AllocatorState.bootstrap.inj (hstate.symm.trans hb)
      exact .moved (.shareAcknowledged hstate hphase hnext hput) (checkpointBootstrap_eq_ok h)
    | finishedSent =>
      simp only [hphase, Call.bind_eq_ok, onBootstrap_eq_ok] at h
      obtain ⟨hasPeer, _, ⟨b₁, b', hb, hack, rfl⟩, h⟩ := h
      obtain rfl : b = b₁ := AllocatorState.bootstrap.inj (hstate.symm.trans hb)
      cases hasPeer with
      | false =>
        exact .moved (.finishedAcknowledged hstate hphase hack) (checkpointBootstrap_eq_ok h)
      | true =>
        obtain ⟨b₂, finished, channel, relay, v, hb₂, hfinished, hconfirm, hawait, hverifier, h⟩ :=
          establish_eq_ok h
        obtain rfl : b' = b₂ := AllocatorState.bootstrap.inj hb₂
        exact .moved (.established hstate hphase (.inl ⟨rfl, _, rfl, hack⟩) hfinished hconfirm hawait
          hverifier) h
    | allocated => simp [hphase] at h
    | claimed => simp [hphase] at h
  | awaitWelcome => simp [hstate] at h
  | awaitAllocation => simp [hstate] at h
  | terminal => simp [hstate] at h

omit [BodyVerifier V] in
theorem welcomed_outcome {effects : List AllocatorEffect} {s s' : AllocatorSession V}
    (h : welcomed s = .ok effects s') : Direct s effects s' := by
  simp only [welcomed, Call.bind_eq_ok, Call.get_eq_ok] at h
  obtain ⟨_, _, ⟨rfl, rfl⟩, h⟩ := h
  by_cases hresume : s.resumeAfterWelcome = true
  · rw [if_pos hresume] at h
    simp only [Call.bind_eq_ok, Call.set_eq_ok, Call.ofExcept_eq_ok] at h
    obtain ⟨_, _, rfl, heffects, rfl⟩ := h
    exact .reopened hresume heffects
  rw [if_neg hresume] at h
  cases hstate : s.state with
  | awaitWelcome =>
    simp only [hstate, Call.bind_eq_ok, Call.set_eq_ok, Call.ofExcept_eq_ok, relayMessage_eq_ok,
      Call.pure_eq_ok] at h
    obtain ⟨_, _, rfl, _, _, ⟨⟨-, rfl⟩, rfl⟩, rfl, rfl⟩ := h
    exact .requested hstate
  | awaitAllocation => simp [hstate] at h
  | bootstrap b => simp [hstate] at h
  | established e => simp [hstate] at h
  | terminal => simp [hstate] at h

theorem applyServer_outcome {message : ServerMessage} {now : UInt64} {nonce : Octets 12}
    {effects : List AllocatorEffect} {s s' : AllocatorSession V}
    (h : applyServer message now nonce s = .ok effects s') :
    Outcome s (.message message) now nonce effects s' := by
  cases message with
  | welcome => exact .direct (welcomed_outcome h)
  | allocatedV2 mailboxId membershipToken expiresAt =>
    unfold applyServer at h
    simp only [Call.bind_eq_ok, Call.get_eq_ok] at h
    obtain ⟨_, _, ⟨rfl, rfl⟩, h⟩ := h
    cases hstate : s.state with
    | awaitAllocation =>
      simp only [hstate] at h
      exact allocated_outcome hstate h
    | awaitWelcome => simp [hstate] at h
    | bootstrap b => simp [hstate] at h
    | established e => simp [hstate] at h
    | terminal => simp [hstate] at h
  | frame peerSeq body => exact peerFrame_outcome h
  | acknowledged seq => exact localAcknowledged_outcome h
  | pong =>
    obtain ⟨rfl, rfl⟩ := Call.pure_eq_ok.mp h
    exact .direct .silent
  | closed =>
    unfold applyServer at h
    simp only [Call.bind_eq_ok, Call.modify_eq_ok, Call.pure_eq_ok] at h
    obtain ⟨_, _, rfl, rfl, rfl⟩ := h
    exact .direct .closed
  | error =>
    unfold applyServer at h
    simp only [Call.bind_eq_ok, Call.modify_eq_ok, Call.pure_eq_ok] at h
    obtain ⟨_, _, rfl, rfl, rfl⟩ := h
    exact .direct .closed
  | _ =>
    unfold applyServer at h
    simp at h

theorem receive_outcome {input : ServerInput} {now : UInt64} {nonce : Octets 12}
    {effects : List AllocatorEffect} {s s' : AllocatorSession V}
    (h : receive input now nonce s = .ok effects s') :
    s.persistenceGate = none ∧ ∃ message, input = .ok message ∧
      Outcome s (.message message.val) now nonce effects s' := by
  simp only [receive, Call.bind_eq_ok, Call.get_eq_ok, Call.guard_eq_ok, guarded_eq_ok] at h
  obtain ⟨_, _, ⟨rfl, rfl⟩, hgate, h⟩ := h
  refine ⟨by simpa using hgate, ?_⟩
  cases input with
  | error e => simp at h
  | ok message => exact ⟨message, rfl, applyServer_outcome h⟩

end AllocatorSession
end CredentialV2
end CbclPairing
