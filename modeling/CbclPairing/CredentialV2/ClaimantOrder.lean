import CbclPairing.CredentialV2.ClaimantFailures

/-! The acknowledgement of a claimant's handshake frame and the allocator's next frame may
arrive in either order. -/
namespace CbclPairing
namespace CredentialV2
open Codec Codec.Cbor Calls

variable [Primitives] {V : Type}

namespace ClaimantSession

variable {s s' : ClaimantSession V} {sequence peerSeq : UInt8} {body : Bytes}
  {effects : List ClaimantEffect}

/-- A session whose share or Finished value is out. -/
def Handshaking (s : ClaimantSession V) : Prop :=
  s.phase = .shareSent ∧ s.peerFinished = none ∨ s.phase = .finishedSent

/-- The peer frame of the phase, once it has come. -/
def peerValue (s : ClaimantSession V) : Option Frame :=
  match s.phase with
  | .shareSent => s.peerShare
  | _ => s.peerFinished

def withPeerValue (s : ClaimantSession V) (frame : Frame) : ClaimantSession V :=
  match s.phase with
  | .shareSent => { s with peerShare := some frame }
  | _ => { s with peerFinished := some frame }

section Parts

variable (s) (frame : Frame) (relay : RelayState)

@[simp] theorem withPeerValue_phase : (s.withPeerValue frame).phase = s.phase := by
  unfold withPeerValue
  split <;> rfl

@[simp] theorem withPeerValue_relay : (s.withPeerValue frame).relay = s.relay := by
  unfold withPeerValue
  split <;> rfl

theorem withPeerValue_withRelay :
    (s.withPeerValue frame).withRelay relay = (s.withRelay relay).withPeerValue frame := by
  unfold withPeerValue withRelay
  dsimp only
  split <;> rfl

theorem peerValue_withPeerValue : (s.withPeerValue frame).peerValue = some frame := by
  cases hphase : s.phase <;> simp [peerValue, withPeerValue, hphase]

end Parts

/-- The kind of peer frame the phase waits for. -/
def expects (s : ClaimantSession V) (frame : Frame) : Bool :=
  match s.phase with
  | .shareSent => Bootstrap.cpaceFrom .allocator frame
  | _ => Bootstrap.finishedFrom .allocator frame

/-- What follows once the own frame is acknowledged and the peer's has come. -/
def proceed : Call Error (ClaimantSession V) (List ClaimantEffect) := do
  let s ← get
  match s.phase with
  | .shareSent => do
    let put ← prepareFinished
    pure [put]
  | _ => establish none

theorem Handshaking.phase_ne (h : s.Handshaking) :
    s.phase ≠ .established ∧ s.phase ≠ .terminal := by
  obtain ⟨hphase, -⟩ | hphase := h <;> simp [hphase]

theorem Handshaking.withPeerValue (h : s.Handshaking) (frame : Frame) :
    (s.withPeerValue frame).Handshaking := by
  obtain ⟨hphase, hfinished⟩ | hphase := h
  · refine .inl ⟨by simp [hphase], ?_⟩
    simp only [ClaimantSession.withPeerValue, hphase, hfinished]
  · exact .inr (by simp [hphase])

theorem establish_some {ack : ClaimantEffect} :
    establish (some ack) s = .ok effects s' ↔
      ∃ more, establish none s = .ok more s' ∧ effects = ack :: more := by
  simp only [establish_eq_ok]
  constructor
  · rintro ⟨pending, frame, channel, relay, v, hpending, hframe, hconfirm, hrelay, hwaiting,
      hverifier, rfl, rfl⟩
    exact ⟨_, ⟨pending, frame, channel, relay, v, hpending, hframe, hconfirm, hrelay, hwaiting,
      hverifier, rfl, rfl⟩, rfl⟩
  · rintro ⟨_, ⟨pending, frame, channel, relay, v, hpending, hframe, hconfirm, hrelay, hwaiting,
      hverifier, rfl, rfl⟩, rfl⟩
    exact ⟨pending, frame, channel, relay, v, hpending, hframe, hconfirm, hrelay, hwaiting,
      hverifier, rfl, rfl⟩

theorem proceed_share (hphase : s.phase = .shareSent) : proceed s = .ok effects s' ↔
    ∃ put, effects = [put] ∧ prepareFinished s = .ok put s' := by
  unfold proceed
  rw [Call.run_bind (Call.run_get s), hphase]
  simp only [Call.bind_eq_ok, Call.pure_eq_ok]
  constructor
  · rintro ⟨put, _, hput, rfl, rfl⟩
    exact ⟨put, rfl, hput⟩
  · rintro ⟨put, rfl, hput⟩
    exact ⟨put, s', hput, rfl, rfl⟩

theorem proceed_finished (hphase : s.phase = .finishedSent) :
    proceed s = .ok effects s' ↔ establish none s = .ok effects s' := by
  unfold proceed
  rw [Call.run_bind (Call.run_get s), hphase]

variable [BodyVerifier V]

/-- A peer frame of the phase is acknowledged and kept, and taken further when nothing
is outstanding. -/
theorem peerFrame_handshaking (h : s.Handshaking) {now : UInt64} :
    peerFrame peerSeq body now s = .ok effects s' ↔ ∃ frame relay next ack,
      decodeFrame body = .ok frame ∧ s.relay = some relay ∧
      RelayState.acceptPeerSequence peerSeq relay = .ok () next ∧ ackFrame peerSeq = .ok ack ∧
      s.expects frame = true ∧
      (next.awaitingAck = true ∧ effects = [ack] ∧ s' = (s.withRelay next).withPeerValue frame ∨
        next.awaitingAck = false ∧ ∃ more, effects = ack :: more ∧
          proceed ((s.withRelay next).withPeerValue frame) = .ok more s') := by
  rw [peerFrame_handshake h.phase_ne.1]
  refine exists_congr fun frame => exists_congr fun relay => exists_congr fun next =>
    exists_congr fun ack => and_congr_right fun _ => and_congr_right fun _ =>
    and_congr_right fun _ => and_congr_right fun _ => ?_
  obtain ⟨hphase, -⟩ | hphase := h
  · have hvalue : (s.withRelay next).withPeerValue frame =
        { s.withRelay next with peerShare := some frame } := by
      simp only [withPeerValue, withRelay, hphase]
    have hshare : ({ s.withRelay next with peerShare := some frame } :
        ClaimantSession V).phase = .shareSent := hphase
    simp only [hvalue, expects, hphase, proceed_share hshare]
    simp only [reduceCtorEq, false_and, or_false, true_and]
    refine and_congr_right fun _ => or_congr Iff.rfl (and_congr_right fun _ => ?_)
    constructor
    · rintro ⟨put, rfl, hput⟩
      exact ⟨[put], rfl, put, rfl, hput⟩
    · rintro ⟨_, rfl, put, rfl, hput⟩
      exact ⟨put, rfl, hput⟩
  · have hvalue : (s.withRelay next).withPeerValue frame =
        { s.withRelay next with peerFinished := some frame } := by
      simp only [withPeerValue, withRelay, hphase]
    have hfinished : ({ s.withRelay next with peerFinished := some frame } :
        ClaimantSession V).phase = .finishedSent := hphase
    simp only [hvalue, expects, hphase, proceed_finished hfinished, establish_some]
    simp only [reduceCtorEq, false_and, false_or, true_and]
    refine and_congr_right fun _ => or_congr Iff.rfl (and_congr_right fun _ => ?_)
    exact exists_congr fun more => and_comm

omit [BodyVerifier V] in
/-- An acknowledgement is repeated, or ends the wait for the peer's frame to be taken
further. -/
theorem localAck_handshaking (h : s.Handshaking) :
    localAck sequence s = .ok effects s' ↔ ∃ relay, s.relay = some relay ∧
      (relay.acknowledgementAlreadyApplied sequence = true ∧ effects = [] ∧ s' = s ∨
        relay.acknowledgementAlreadyApplied sequence = false ∧
        ∃ next, RelayState.acknowledgeBootstrapFrame sequence relay = .ok () next ∧
          (s.peerValue = none ∧ effects = [] ∧ s' = s.withRelay next ∨
            s.peerValue.isSome = true ∧ proceed (s.withRelay next) = .ok effects s')) := by
  rw [localAck_handshake h.phase_ne.1]
  refine exists_congr fun relay => and_congr_right fun _ => or_congr Iff.rfl
    (and_congr_right fun _ => exists_congr fun next => and_congr_right fun _ => ?_)
  obtain ⟨hphase, hfinished⟩ | hphase := h
  · have hshare : (s.withRelay next).phase = .shareSent := hphase
    simp only [peerValue, hphase, hfinished, proceed_share hshare]
    simp only [reduceCtorEq, false_and, or_false, true_and]
    exact or_comm
  · have hfinished : (s.withRelay next).phase = .finishedSent := hphase
    simp only [peerValue, hphase, proceed_finished hfinished]
    simp only [reduceCtorEq, false_and, false_or, true_and]

/-! ### Either order -/

section Orders

/-- An acknowledgement and a peer frame have both been taken: the frame is acknowledged
and kept, and taken further unless the acknowledgement was a repeated one. -/
def Joined (s : ClaimantSession V) (relay : RelayState) (sequence peerSeq : UInt8) (body : Bytes)
    (effects : List ClaimantEffect) (s' : ClaimantSession V) : Prop :=
  ∃ frame next ack, decodeFrame body = .ok frame ∧ peerSeq = relay.nextPeerSequence ∧
    checkedSucc peerSeq = some next ∧ ackFrame peerSeq = .ok ack ∧ s.expects frame = true ∧
    (relay.acknowledgementAlreadyApplied sequence = true ∧ effects = [ack] ∧
        s' = (s.withRelay { relay with nextPeerSequence := next }).withPeerValue frame ∨
      relay.acknowledgementAlreadyApplied sequence = false ∧
        checkedPred relay.nextLocalSequence = some sequence ∧ relay.cachedOutbound = none ∧
        ∃ more, effects = ack :: more ∧
          proceed ((s.withRelay { relay with
            nextPeerSequence := next, awaitingAck := false }).withPeerValue frame) = .ok more s')

variable {relay : RelayState} (hs : s.Handshaking) (hrelay : s.relay = some relay)
  (hwaiting : relay.awaitingAck = true) (hvalue : s.peerValue = none)

include hs hrelay hwaiting hvalue

theorem acknowledged_then_frame (now : UInt64) :
    (∃ before s₁ after, localAck sequence s = .ok before s₁ ∧
      peerFrame peerSeq body now s₁ = .ok after s' ∧ effects = before ++ after) ↔
      s.Joined relay sequence peerSeq body effects s' := by
  constructor
  · rintro ⟨before, s₁, after, hlocal, hframe, rfl⟩
    obtain ⟨_, hrelay', hlocal⟩ := (localAck_handshaking hs).mp hlocal
    obtain rfl := Option.some.inj (hrelay.symm.trans hrelay')
    obtain ⟨happlied, rfl, rfl⟩ | ⟨happlied, relay₁, hack, hlocal⟩ := hlocal
    · obtain ⟨frame, _, _, ack, hdecode, hrelay', haccept, heffect, hexpects, hframe⟩ :=
        (peerFrame_handshaking hs).mp hframe
      obtain rfl := Option.some.inj (hrelay.symm.trans hrelay')
      obtain ⟨hpeer, next, hnext, rfl⟩ := RelayState.acceptPeerSequence_eq_ok.mp haccept
      refine ⟨frame, next, ack, hdecode, hpeer, hnext, heffect, hexpects, .inl ⟨happlied, ?_⟩⟩
      obtain ⟨-, rfl, rfl⟩ | ⟨hidle, -⟩ := hframe
      · exact ⟨rfl, rfl⟩
      · cases hwaiting.symm.trans hidle
    · obtain ⟨-, rfl, rfl⟩ | ⟨hsome, -⟩ := hlocal
      swap
      · simp [hvalue] at hsome
      obtain ⟨hlast, -, huncached, rfl⟩ := RelayState.acknowledgeBootstrapFrame_eq_ok.mp hack
      obtain ⟨frame, _, _, ack, hdecode, hrelay', haccept, heffect, hexpects, hframe⟩ :=
        (peerFrame_handshaking (s := s.withRelay _) hs).mp hframe
      obtain rfl := Option.some.inj hrelay'
      obtain ⟨hpeer, next, hnext, rfl⟩ := RelayState.acceptPeerSequence_eq_ok.mp haccept
      refine ⟨frame, next, ack, hdecode, hpeer, hnext, heffect, hexpects,
        .inr ⟨happlied, hlast, huncached, ?_⟩⟩
      obtain ⟨hbusy, -⟩ | ⟨-, more, rfl, hmore⟩ := hframe
      · cases hbusy
      · exact ⟨more, rfl, hmore⟩
  · rintro ⟨frame, next, ack, hdecode, hpeer, hnext, heffect, hexpects, hjoined⟩
    obtain ⟨happlied, rfl, rfl⟩ | ⟨happlied, hlast, huncached, more, rfl, hmore⟩ := hjoined
    · refine ⟨[], s, [ack],
        (localAck_handshaking hs).mpr ⟨relay, hrelay, .inl ⟨happlied, rfl, rfl⟩⟩,
        (peerFrame_handshaking hs).mpr ?_, rfl⟩
      exact ⟨frame, relay, _, ack, hdecode, hrelay,
        RelayState.acceptPeerSequence_eq_ok.mpr ⟨hpeer, next, hnext, rfl⟩, heffect, hexpects,
        .inl ⟨hwaiting, rfl, rfl⟩⟩
    · have hack := RelayState.acknowledgeBootstrapFrame_eq_ok.mpr
        ⟨hlast, hwaiting, huncached, rfl⟩
      refine ⟨[], s.withRelay { relay with awaitingAck := false }, ack :: more,
        (localAck_handshaking hs).mpr ⟨relay, hrelay, .inr ⟨happlied, _, hack,
          .inl ⟨hvalue, rfl, rfl⟩⟩⟩, (peerFrame_handshaking (s := s.withRelay _) hs).mpr ?_, rfl⟩
      exact ⟨frame, _, _, ack, hdecode, rfl,
        RelayState.acceptPeerSequence_eq_ok.mpr ⟨hpeer, next, hnext, rfl⟩, heffect, hexpects,
        .inr ⟨rfl, more, rfl, hmore⟩⟩

omit hvalue in
theorem frame_then_acknowledged (now : UInt64) :
    (∃ before s₁ after, peerFrame peerSeq body now s = .ok before s₁ ∧
      localAck sequence s₁ = .ok after s' ∧ effects = before ++ after) ↔
      s.Joined relay sequence peerSeq body effects s' := by
  constructor
  · rintro ⟨before, s₁, after, hframe, hlocal, rfl⟩
    obtain ⟨frame, _, _, ack, hdecode, hrelay', haccept, heffect, hexpects, hframe⟩ :=
      (peerFrame_handshaking hs).mp hframe
    obtain rfl := Option.some.inj (hrelay.symm.trans hrelay')
    obtain ⟨hpeer, next, hnext, rfl⟩ := RelayState.acceptPeerSequence_eq_ok.mp haccept
    obtain ⟨-, rfl, rfl⟩ | ⟨hidle, -⟩ := hframe
    swap
    · cases hwaiting.symm.trans hidle
    refine ⟨frame, next, ack, hdecode, hpeer, hnext, heffect, hexpects, ?_⟩
    have hkept := Handshaking.withPeerValue
      (s := s.withRelay { relay with nextPeerSequence := next }) hs frame
    obtain ⟨_, hrelay', hlocal⟩ := (localAck_handshaking hkept).mp hlocal
    rw [withPeerValue_relay] at hrelay'
    obtain rfl := Option.some.inj hrelay'
    obtain ⟨happlied, rfl, rfl⟩ | ⟨happlied, _, hack, hlocal⟩ := hlocal
    · exact .inl ⟨happlied, rfl, rfl⟩
    · obtain ⟨hlast, -, huncached, rfl⟩ := RelayState.acknowledgeBootstrapFrame_eq_ok.mp hack
      obtain ⟨hnone, -⟩ | ⟨-, hmore⟩ := hlocal
      · simp [peerValue_withPeerValue] at hnone
      · rw [withPeerValue_withRelay] at hmore
        exact .inr ⟨happlied, hlast, huncached, after, rfl, hmore⟩
  · rintro ⟨frame, next, ack, hdecode, hpeer, hnext, heffect, hexpects, hjoined⟩
    have hkept := Handshaking.withPeerValue
      (s := s.withRelay { relay with nextPeerSequence := next }) hs frame
    have hframe : peerFrame peerSeq body now s = .ok [ack]
        ((s.withRelay { relay with nextPeerSequence := next }).withPeerValue frame) :=
      (peerFrame_handshaking hs).mpr ⟨frame, relay, _, ack, hdecode, hrelay,
        RelayState.acceptPeerSequence_eq_ok.mpr ⟨hpeer, next, hnext, rfl⟩, heffect, hexpects,
        .inl ⟨hwaiting, rfl, rfl⟩⟩
    obtain ⟨happlied, rfl, rfl⟩ | ⟨happlied, hlast, huncached, more, rfl, hmore⟩ := hjoined
    · exact ⟨[ack], _, [], hframe, (localAck_handshaking hkept).mpr
        ⟨{ relay with nextPeerSequence := next }, withPeerValue_relay _ _,
          .inl ⟨happlied, rfl, rfl⟩⟩, rfl⟩
    · refine ⟨[ack], _, more, hframe, (localAck_handshaking hkept).mpr
        ⟨{ relay with nextPeerSequence := next }, withPeerValue_relay _ _, .inr ⟨happlied, _,
          RelayState.acknowledgeBootstrapFrame_eq_ok.mpr ⟨hlast, hwaiting, huncached, rfl⟩,
          .inr ⟨by simp [peerValue_withPeerValue], ?_⟩⟩⟩, rfl⟩
      rw [withPeerValue_withRelay]
      exact hmore

end Orders

/-- What `receive` asks for before it reads a message. -/
def Open (s : ClaimantSession V) (now : UInt64) : Prop :=
  s.persistenceGate = none ∧ s.hasDurableEndpointPhase = false ∧ s.phase ≠ .terminal ∧
    now < s.carrier.relayExpiresAt

theorem receive_eq_ok {message : {m : ServerMessage // m.recognised = true}} {now : UInt64} :
    receive (.ok message) now s = .ok effects s' ↔
      s.Open now ∧ applyServer message.val now s = .ok effects s' := by
  unfold receive
  rw [Call.run_bind (Call.run_get s), Call.guard_eq_ok, Call.guard_eq_ok]
  by_cases hexpired : s.carrier.relayExpiresAt ≤ now
  · have hlate : ¬now < s.carrier.relayExpiresAt := UInt64.not_lt.mpr hexpired
    simp [hexpired, Open, hlate]
  · have hlive : now < s.carrier.relayExpiresAt := UInt64.not_le.mp hexpired
    rw [if_neg hexpired, guarded_eq_ok]
    simp [Open, hlive, and_assoc]

omit [BodyVerifier V] in
theorem open_withPeerValue {frame : Frame} {now : UInt64} :
    (s.withPeerValue frame).Open now ↔ s.Open now := by
  unfold Open hasDurableEndpointPhase
  rw [withPeerValue_phase]
  unfold withPeerValue
  split <;> exact Iff.rfl

/-- Two relay messages one after the other. -/
def receiveBoth (first second : ServerInput) (now later : UInt64) :
    Call Error (ClaimantSession V) (List ClaimantEffect) := do
  let before ← receive first now
  let after ← receive second later
  pure (before ++ after)

theorem receiveBoth_eq_ok {first second : {m : ServerMessage // m.recognised = true}}
    {now later : UInt64} :
    receiveBoth (.ok first) (.ok second) now later s = .ok effects s' ↔ s.Open now ∧
      ∃ before s₁ after, applyServer first.val now s = .ok before s₁ ∧ s₁.Open later ∧
        applyServer second.val later s₁ = .ok after s' ∧ effects = before ++ after := by
  simp only [receiveBoth, Call.bind_eq_ok, receive_eq_ok, Call.pure_eq_ok]
  constructor
  · rintro ⟨before, s₁, ⟨hopen, hfirst⟩, after, _, ⟨hlater, hsecond⟩, rfl, rfl⟩
    exact ⟨hopen, before, s₁, after, hfirst, hlater, hsecond, rfl⟩
  · rintro ⟨hopen, before, s₁, after, hfirst, hlater, hsecond, rfl⟩
    exact ⟨before, s₁, ⟨hopen, hfirst⟩, after, s', ⟨hlater, hsecond⟩, rfl, rfl⟩

/-- The own frame of the phase is unacknowledged, and the peer's has not come. -/
def Awaits (s : ClaimantSession V) : Prop :=
  (∃ relay, s.relay = some relay ∧ relay.awaitingAck = true) ∧
    (s.phase = .shareSent ∧ s.peerShare = none ∨ s.phase = .finishedSent ∧ s.peerFinished = none)

/-- An acknowledgement and a peer frame lead to the same session with the same effects,
whichever comes first. -/
def OrderFree (s : ClaimantSession V) : Prop :=
  ∀ (sequence peerSeq : UInt8) (body : Bytes)
    (hack : (ServerMessage.acknowledged sequence).recognised = true)
    (hframe : (ServerMessage.frame peerSeq body).recognised = true)
    (now later now' later' : UInt64),
    (∀ time ∈ [now, later, now', later'], time < s.carrier.relayExpiresAt) →
    ∀ effects s',
      receiveBoth (.ok ⟨_, hack⟩) (.ok ⟨_, hframe⟩) now later s = .ok effects s' ↔
        receiveBoth (.ok ⟨_, hframe⟩) (.ok ⟨_, hack⟩) now' later' s = .ok effects s'

/-- Before its own Finished value is out a session keeps none of the peer's. -/
def Unfinished (s : ClaimantSession V) : Prop := s.phase ≠ .finishedSent → s.peerFinished = none

omit [BodyVerifier V] in
theorem Awaits.handshaking (h : s.Awaits) (hunfinished : s.Unfinished) : s.Handshaking := by
  obtain ⟨-, ⟨hphase, -⟩ | ⟨hphase, -⟩⟩ := h
  · exact .inl ⟨hphase, hunfinished (by simp [hphase])⟩
  · exact .inr hphase

omit [BodyVerifier V] in
theorem Awaits.peerValue (h : s.Awaits) : s.peerValue = none := by
  obtain ⟨-, ⟨hphase, hnone⟩ | ⟨hphase, hnone⟩⟩ := h <;>
    simp [ClaimantSession.peerValue, hphase, hnone]

omit [BodyVerifier V] in
/-- While the peer's frame is missing an acknowledgement opens and closes nothing. -/
theorem localAck_open (hs : s.Handshaking) (hvalue : s.peerValue = none)
    (h : localAck sequence s = .ok effects s') (now : UInt64) : s'.Open now ↔ s.Open now := by
  obtain ⟨relay, -, ⟨-, -, rfl⟩ | ⟨-, next, -, ⟨-, -, rfl⟩ | ⟨hsome, -⟩⟩⟩ :=
    (localAck_handshaking hs).mp h
  · exact Iff.rfl
  · exact Iff.rfl
  · simp [hvalue] at hsome

theorem peerFrame_open {relay : RelayState} (hs : s.Handshaking) (hrelay : s.relay = some relay)
    (hwaiting : relay.awaitingAck = true) {earlier : UInt64}
    (h : peerFrame peerSeq body earlier s = .ok effects s') (now : UInt64) :
    s'.Open now ↔ s.Open now := by
  obtain ⟨frame, _, _, ack, -, hrelay', haccept, -, -, hframe⟩ := (peerFrame_handshaking hs).mp h
  obtain rfl := Option.some.inj (hrelay.symm.trans hrelay')
  obtain ⟨-, next, -, rfl⟩ := RelayState.acceptPeerSequence_eq_ok.mp haccept
  obtain ⟨-, -, rfl⟩ | ⟨hidle, -⟩ := hframe
  · exact open_withPeerValue
  · cases hwaiting.symm.trans hidle

theorem Awaits.order_free (h : s.Awaits) (hunfinished : s.Unfinished) : s.OrderFree := by
  intro sequence peerSeq body hack hframe now later now' later' hlive effects s'
  have hs := h.handshaking hunfinished
  have hvalue := h.peerValue
  obtain ⟨⟨relay, hrelay, hwaiting⟩, -⟩ := h
  have hopen : ∀ time ∈ [now, later, now', later'], s.Open time ↔ s.persistenceGate = none ∧
      s.hasDurableEndpointPhase = false ∧ s.phase ≠ .terminal := by
    intro time htime
    exact ⟨fun h => ⟨h.1, h.2.1, h.2.2.1⟩, fun h => ⟨h.1, h.2.1, h.2.2, hlive time htime⟩⟩
  have hacknowledged : receiveBoth (.ok ⟨_, hack⟩) (.ok ⟨_, hframe⟩) now later s =
      .ok effects s' ↔ s.Open now ∧ s.Joined relay sequence peerSeq body effects s' := by
    rw [receiveBoth_eq_ok, ← acknowledged_then_frame hs hrelay hwaiting hvalue later]
    refine and_congr_right fun hnow => ?_
    constructor
    · rintro ⟨before, s₁, after, hlocal, -, hpeer, rfl⟩
      exact ⟨before, s₁, after, hlocal, hpeer, rfl⟩
    · rintro ⟨before, s₁, after, hlocal, hpeer, rfl⟩
      have hlater : s.Open later := (hopen later (by simp)).mpr ((hopen now (by simp)).mp hnow)
      exact ⟨before, s₁, after, hlocal, (localAck_open hs hvalue hlocal later).mpr hlater, hpeer,
        rfl⟩
  have hframed : receiveBoth (.ok ⟨_, hframe⟩) (.ok ⟨_, hack⟩) now' later' s =
      .ok effects s' ↔ s.Open now' ∧ s.Joined relay sequence peerSeq body effects s' := by
    rw [receiveBoth_eq_ok, ← frame_then_acknowledged hs hrelay hwaiting now']
    refine and_congr_right fun hnow => ?_
    constructor
    · rintro ⟨before, s₁, after, hpeer, -, hlocal, rfl⟩
      exact ⟨before, s₁, after, hpeer, hlocal, rfl⟩
    · rintro ⟨before, s₁, after, hpeer, hlocal, rfl⟩
      have hlater : s.Open later' := (hopen later' (by simp)).mpr ((hopen now' (by simp)).mp hnow)
      exact ⟨before, s₁, after, hpeer, (peerFrame_open hs hrelay hwaiting hpeer later').mpr hlater,
        hlocal, rfl⟩
  rw [hacknowledged, hframed, hopen now (by simp), hopen now' (by simp)]

/-- Both orders of a delivery that succeeds in one of them. -/
theorem OrderFree.both (h : s.OrderFree) {sequence peerSeq : UInt8} {body : Bytes}
    {hack : (ServerMessage.acknowledged sequence).recognised = true}
    {hframe : (ServerMessage.frame peerSeq body).recognised = true} {now later : UInt64}
    (hok : (Call.verdict (receiveBoth (.ok ⟨_, hack⟩) (.ok ⟨_, hframe⟩) now later s)).isOk = true)
    {now' later' : UInt64}
    (hlive : ∀ time ∈ [now, later, now', later'], time < s.carrier.relayExpiresAt) :
    ∃ effects s', receiveBoth (.ok ⟨_, hack⟩) (.ok ⟨_, hframe⟩) now later s = .ok effects s' ∧
      receiveBoth (.ok ⟨_, hframe⟩) (.ok ⟨_, hack⟩) now' later' s = .ok effects s' := by
  obtain ⟨s', hrun⟩ := Call.verdict_eq_ok.mp (eq_ok_value _ hok)
  exact ⟨_, s', hrun, (h sequence peerSeq body hack hframe _ _ _ _ hlive _ s').mp hrun⟩

/-! ### Every reachable session -/

variable {key : Octets 32} {c : ClaimantCall}

/-- Before its channel is confirmed only relay messages move a session. -/
theorem Starting.call_ok (hs : s.Starting) (hestablished : s.phase ≠ .established)
    (hawaiting : s.phase ≠ .awaitProfileAuthorisation) (h : call key c s = .ok effects s') :
    s' = s ∨ ∃ input now, c = .receive input now := by
  have hgate := hs.ungated
  cases c with
  | receive input now => exact .inr ⟨input, now, rfl⟩
  | start =>
    simp only [call, Call.bind_eq_ok, Call.get_eq_ok, Call.ofExcept_eq_ok, Call.pure_eq_ok] at h
    obtain ⟨_, _, ⟨rfl, rfl⟩, _, _, ⟨-, rfl⟩, -, rfl⟩ := h
    exact .inl rfl
  | authoriseAuthenticatedProfile offerVerifier =>
    simp [call, authoriseAuthenticatedProfile, hawaiting] at h
  | prepareApplicationObject object => simp [call, prepareApplicationObject, hestablished] at h
  | prepareFinalApproval object nonce now => simp [call, prepareFinalApproval, hestablished] at h
  | checkpointPersisted generation => simp [call, checkpointPersisted, hgate] at h
  | resumeCachedFrame => simp [call, resumeCachedFrame, hestablished] at h
  | preparePayload object nonce now => simp [call, preparePayload, hestablished] at h
  | receiveDurable input now nonce => simp [call, receiveDurable, hestablished] at h
  | receiveRecoveredReceipt input => simp [call, receiveRecoveredReceipt, hestablished] at h
  | authenticateRecoveredReceiptObject object =>
    simp [call, authenticateRecoveredReceiptObject, hestablished] at h
  | commitRecoveredReceipt receipt => simp [call, commitRecoveredReceipt, hestablished] at h

omit [BodyVerifier V] in
theorem Unfinished.prepared {put : ClaimantEffect} (h : prepareFinished s = .ok put s') :
    s'.Unfinished := by
  obtain ⟨_, _, _, _, _, _, _, _, -, -, -, -, -, -, -, -, rfl⟩ := prepareFinished_eq_ok.mp h
  exact fun hphase => absurd rfl hphase

omit [BodyVerifier V] in
theorem Unfinished.established {ack : Option ClaimantEffect}
    (h : establish ack s = .ok effects s') : s'.Unfinished := by
  obtain ⟨_, _, _, _, _, -, -, -, -, -, -, -, rfl⟩ := establish_eq_ok.mp h
  exact fun _ => rfl

theorem Unfinished.received (hunfinished : s.Unfinished) (hestablished : s.phase ≠ .established)
    {input : ServerInput} {now : UInt64} (h : receive input now s = .ok effects s') :
    s'.Unfinished := by
  cases input with
  | error e =>
    unfold receive at h
    rw [Call.run_bind (Call.run_get s), Call.guard_eq_ok, Call.guard_eq_ok] at h
    obtain ⟨-, -, h⟩ := h
    split_ifs at h
    · cases h
    · cases guarded_eq_ok.mp h
  | ok message =>
    obtain ⟨message, hmessage⟩ := message
    obtain ⟨-, h⟩ := receive_eq_ok.mp h
    dsimp only [applyServer] at h
    rw [Call.run_bind (Call.run_get s)] at h
    cases message with
    | welcome =>
      dsimp only at h
      split_ifs at h with hphase
      · obtain ⟨presence, token, -, -, -, rfl⟩ := welcomed_eq_ok.mp h
        exact fun _ => hunfinished (by simp [hphase])
      · cases h
    | claimedV2 mailboxId membershipToken expiresAt =>
      dsimp only at h
      split_ifs at h with hphase
      · obtain ⟨_, _, _, _, _, -, -, -, -, rfl⟩ := claimed_eq_ok h
        exact fun _ => hunfinished (by simp [hphase])
      · cases h
    | frame peerSeq body =>
      obtain ⟨frame, relay, next, ack, -, -, -, -, h⟩ := (peerFrame_handshake hestablished).mp h
      obtain ⟨hphase, -, ⟨-, -, rfl⟩ | ⟨-, put, -, hput⟩⟩ | ⟨hphase, -, ⟨-, -, rfl⟩ | ⟨-, h⟩⟩ := h
      · exact fun _ => hunfinished (by simp [hphase])
      · exact .prepared hput
      · exact fun hother => absurd hphase hother
      · exact .established h
    | acknowledged sequence =>
      obtain ⟨relay, -, ⟨-, -, rfl⟩ | ⟨-, next, -, h⟩⟩ := (localAck_handshake hestablished).mp h
      · exact hunfinished
      obtain ⟨hphase, ⟨-, put, -, hput⟩ | ⟨-, hnone, -, rfl⟩⟩ |
        ⟨hphase, ⟨hnone, -, rfl⟩ | ⟨-, h⟩⟩ := h
      · exact .prepared hput
      · exact fun _ => hnone
      · exact fun _ => hnone
      · exact .established h
    | pong =>
      obtain ⟨-, rfl⟩ := Call.pure_eq_ok.mp h
      exact hunfinished
    | closed reason =>
      simp only [Call.bind_eq_ok, Call.modify_eq_ok, Call.pure_eq_ok] at h
      obtain ⟨_, _, rfl, -, rfl⟩ := h
      exact fun _ => rfl
    | error code =>
      simp only [Call.bind_eq_ok, Call.modify_eq_ok, Call.pure_eq_ok] at h
      obtain ⟨_, _, rfl, -, rfl⟩ := h
      exact fun _ => rfl
    | _ => cases h

theorem Drives.unfinished {e : Established V} (h : s.Drives e) (hunfinished : s.Unfinished)
    (hprogress : Progress key s c effects s') : s'.Unfinished := by
  have happlication := h.application
  have hnot : ¬s.Starting := by
    intro hstarting
    cases hstarting.endpoint.symm.trans (application_eq_some.mp happlication).1
  cases hprogress with
  | silent => exact hunfinished
  | bootstrapped hstarting => exact absurd hstarting hnot
  | confirmed hstarting => exact absurd hstarting hnot
  | authorised hphase => exact fun _ => hunfinished (by simp [hphase])
  | taken => exact hunfinished
  | acknowledged => exact hunfinished
  | sent => exact hunfinished
  | sealed_ => exact hunfinished
  | persisted => exact hunfinished
  | resumed => exact hunfinished
  | receipt _ _ _ _ _ hs' =>
    rw [hs']
    exact hunfinished
  | ended => exact fun _ => rfl

theorem Failed.unfinished (h : s.Failed c s') (hunfinished : s.Unfinished) : s'.Unfinished := by
  cases h with
  | same _ hsame =>
    obtain rfl | ⟨v, rfl⟩ := hsame <;> exact hunfinished
  | ended => exact fun _ => rfl
  | torn => exact hunfinished

theorem act_unfinished (a : ClaimantAct) (s : ClaimantSession V) (h : s.Stage ∧ s.Unfinished) :
    (Call.after (act a s)).Stage ∧ (Call.after (act a s)).Unfinished := by
  obtain ⟨hs, hunfinished⟩ := h
  refine ⟨act_stage a s hs, ?_⟩
  cases hcall : act a s with
  | error e s' => exact ((call_fails hs a.2).error hcall).unfinished hunfinished
  | ok effects s' =>
    have hprogress := call_progress hs hcall
    cases hs with
    | starting hstarting hestablished hawaiting =>
      obtain rfl | ⟨input, now, hinput⟩ := hstarting.call_ok hestablished hawaiting hcall
      · exact hunfinished
      · unfold act at hcall
        rw [hinput] at hcall
        exact hunfinished.received hestablished hcall
    | awaiting hdrives => exact hdrives.unfinished hunfinished hprogress
    | running hdrives => exact hdrives.unfinished hunfinished hprogress

theorem Begins.unfinished {s₀ : ClaimantSession V} (h : s₀.Begins) (acts : List ClaimantAct) :
    (Runs.after act s₀ acts).Unfinished := by
  refine (Runs.after_kept act act_unfinished ⟨h.stage, ?_⟩ acts).2
  cases h with
  | new => exact fun _ => rfl
  | restored h =>
    unfold restore at h
    rw [Calls.except_bind_eq_ok] at h
    obtain ⟨e, -, h⟩ := h
    obtain ⟨-, h⟩ := Calls.guard_eq_ok.mp h
    obtain rfl := Except.ok.inj h
    exact fun _ => rfl

end ClaimantSession

end CredentialV2
end CbclPairing
