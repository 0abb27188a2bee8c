import CbclPairing.CredentialV2.AllocatorRecovery
import CbclPairing.CredentialV2.ClaimantSteps
import CbclPairing.CredentialV2.ReceiptRuns

/-! Every successful call of a claimant session is one of the ways it can progress, and
every failed one leaves the session alone, ends it, or is one of the few that neither
finish nor undo their work. -/
namespace CbclPairing
namespace CredentialV2
open Codec Codec.Cbor Calls

variable [Primitives] {V : Type}

namespace ClaimantSession

variable {s s' : ClaimantSession V}

theorem guarded_eq_ok {α : Type} {m : Call Error (ClaimantSession V) α} {a : α} :
    guarded m s = .ok a s' ↔ m s = .ok a s' := by
  unfold guarded
  cases m s <;> simp

/-! ### Bootstrap -/

omit [Primitives] in
theorem putless_singleton {effect : ClaimantEffect} (h : effect.Putless) :
    ∀ other ∈ [effect], other.Putless := by
  intro other hother
  exact List.mem_singleton.mp hother ▸ h

omit [Primitives] in
theorem bare_singleton {effect : ClaimantEffect} (h : effect.Putless) :
    ∀ other ∈ [effect], other.Bare := fun other hother => (putless_singleton h other hother).bare

omit [Primitives] in
theorem putless_of_ackFrame {peerSeq : UInt8} {effect : ClaimantEffect}
    (h : ackFrame peerSeq = .ok effect) : effect.Putless := by
  obtain ⟨-, rfl⟩ := ackFrame_eq_ok.mp h
  exact ⟨rfl, rfl⟩

omit [Primitives] in
theorem bare_of_putFrame {sequence : UInt8} {frame : Frame} {effect : ClaimantEffect}
    (h : putFrame sequence frame = .ok effect) (hframe : frame.isSealed = false) :
    effect.Bare := by
  obtain ⟨body, hbody, -, rfl⟩ := putFrame_eq_ok.mp h
  refine ⟨rfl, ?_⟩
  rintro _ ⟨⟩
  exact ⟨frame, hbody, hframe⟩

theorem share_plain {state : Cpace.CpaceState} {frame : Frame}
    (h : s.share = .ok (state, frame)) : frame.isSealed = false := by
  unfold share at h
  split at h
  · cases h
  obtain ⟨⟨_, message⟩, -, h⟩ := Calls.except_bind_eq_ok.mp h
  obtain ⟨frame', hframe, h⟩ := Calls.except_bind_eq_ok.mp h
  unfold Frame.ofCpace at hframe
  split_ifs at hframe
  cases hframe
  cases h
  rfl

theorem welcomed_eq_ok {effects : List ClaimantEffect} :
    welcomed s = .ok effects s' ↔ ∃ presence token, s.presence = some presence ∧
      presence.claimToken = some token ∧ effects = [.send (.claimV2 s.carrier.mailboxId token)] ∧
      s' = { s with
        presence := some { presence with claimToken := none }, claimToken := some token
        phase := .claimSent } := by
  simp only [welcomed, Call.bind_eq_ok, Call.zoom?_eq_ok, Presence.takeClaimToken, Call.get_eq_ok,
    Call.modify_eq_ok, Call.ofExcept_eq_ok, relayMessage_eq_ok, Call.pure_eq_ok]
  constructor
  · rintro ⟨token, _, ⟨presence, _, hpresence, ⟨_, _, ⟨rfl, rfl⟩, htoken⟩, rfl⟩, _, _, rfl, _, _,
      ⟨rfl, rfl⟩, _, _, ⟨⟨-, rfl⟩, rfl⟩, rfl, rfl⟩
    cases hclaim : presence.claimToken with
    | none => simp [hclaim] at htoken
    | some claim =>
      simp only [hclaim, Call.bind_eq_ok, Call.set_eq_ok, Call.pure_eq_ok] at htoken
      obtain ⟨_, _, rfl, rfl, rfl⟩ := htoken
      exact ⟨presence, claim, hpresence, hclaim, rfl, rfl⟩
  · rintro ⟨presence, token, hpresence, hclaim, rfl, rfl⟩
    refine ⟨token, _, ⟨presence, _, hpresence, ⟨presence, _, ⟨rfl, rfl⟩, ?_⟩, rfl⟩, ⟨⟩, _, rfl, _, _,
      ⟨rfl, rfl⟩, _, _, ⟨⟨rfl, rfl⟩, rfl⟩, rfl, rfl⟩
    simp [hclaim]

theorem claimed_eq_ok {mailboxId membershipToken : Octets 32} {expiresAt : UInt64}
    {effects : List ClaimantEffect}
    (h : claimed mailboxId membershipToken expiresAt s = .ok effects s') :
    ∃ state share sequence relay put,
      ({ s with claimToken := none } : ClaimantSession V).share = .ok (state, share) ∧
      RelayState.queueBootstrapFrame (RelayState.new membershipToken) = .ok sequence relay ∧
      putFrame sequence share = .ok put ∧ effects = [put] ∧
      s' = { s with
        claimToken := none, localShare := some share, relay := some relay
        phase := .shareSent } := by
  simp only [claimed, Call.bind_eq_ok, Call.get_eq_ok, Call.guard_eq_ok, Call.modify_eq_ok,
    Call.ofExcept_eq_ok, Prod.exists] at h
  obtain ⟨_, _, ⟨rfl, rfl⟩, -, _, _, rfl, state, share, _, ⟨hshare, rfl⟩, h⟩ := h
  cases hqueue : RelayState.queueBootstrapFrame (RelayState.new membershipToken) with
  | error e relay => simp [hqueue] at h
  | ok sequence relay =>
    simp only [hqueue, Call.bind_eq_ok, Call.modify_eq_ok, Call.ofExcept_eq_ok,
      Call.pure_eq_ok] at h
    obtain ⟨_, _, rfl, put, _, ⟨hput, rfl⟩, rfl, rfl⟩ := h
    exact ⟨state, share, sequence, relay, put, hshare, rfl, hput, rfl, rfl⟩

theorem prepareFinished_eq_ok {put : ClaimantEffect} :
    prepareFinished s = .ok put s' ↔ ∃ state localShare peerShare peerMessage pending sequence relay
      relay', s.share = .ok (state, localShare) ∧ s.localShare = some localShare ∧
      s.peerShare = some peerShare ∧ peerShare.cpaceMessage = some peerMessage ∧
      s.schedule state localShare peerShare peerMessage = .ok pending ∧ s.relay = some relay ∧
      RelayState.queueBootstrapFrame relay = .ok sequence relay' ∧
      putFrame sequence pending.localFinishedFrame = .ok put ∧
      s' = { s with
        relay := some relay', pendingChannel := some pending, phase := .finishedSent } := by
  simp only [prepareFinished, Call.bind_eq_ok, Call.get_eq_ok, Call.ofExcept_eq_ok, Prod.exists,
    Call.guard_eq_ok, Call.orThrow_eq_ok, onRelay_eq_ok, Call.modify_eq_ok, not_not]
  constructor
  · rintro ⟨_, _, ⟨rfl, rfl⟩, state, localShare, _, ⟨hshare, rfl⟩, hlocal, peerShare, _,
      ⟨hpeer, rfl⟩, peerMessage, _, ⟨hmessage, rfl⟩, pending, _, ⟨hschedule, rfl⟩, sequence, _,
      ⟨relay, relay', hrelay, hqueue, rfl⟩, _, _, rfl, hput, rfl⟩
    exact ⟨state, localShare, peerShare, peerMessage, pending, sequence, relay, relay', hshare,
      hlocal, hpeer, hmessage, hschedule, hrelay, hqueue, hput, rfl⟩
  · rintro ⟨state, localShare, peerShare, peerMessage, pending, sequence, relay, relay', hshare,
      hlocal, hpeer, hmessage, hschedule, hrelay, hqueue, hput, rfl⟩
    exact ⟨s, s, ⟨rfl, rfl⟩, state, localShare, s, ⟨hshare, rfl⟩, hlocal, peerShare, s,
      ⟨hpeer, rfl⟩, peerMessage, s, ⟨hmessage, rfl⟩, pending, s, ⟨hschedule, rfl⟩, sequence, _,
      ⟨relay, relay', hrelay, hqueue, rfl⟩, ⟨⟩, _, rfl, hput, rfl⟩

theorem schedule_side {state : Cpace.CpaceState} {localShare peerShare : Frame}
    {peerMessage : CpaceMessage} {pending : PendingChannel}
    (h : s.schedule state localShare peerShare peerMessage = .ok pending) :
    pending.localSide = .claimant := by
  unfold schedule at h
  obtain ⟨isk, -, h⟩ := Calls.except_bind_eq_ok.mp h
  obtain ⟨peerBytes, -, h⟩ := Calls.except_bind_eq_ok.mp h
  obtain ⟨localBytes, -, h⟩ := Calls.except_bind_eq_ok.mp h
  cases h
  rfl

/-- The session once its channel is confirmed. -/
def opened (s : ClaimantSession V) (channel : SecureChannel) (v : V) : ClaimantSession V :=
  { s with
    pendingChannel := none, bodyVerifier := none
    endpoint := some (Endpoint.new .claimant s.carrier v), channel := some channel
    phase := .awaitProfileAuthorisation, presence := none
    cpaceScalar := Octets.replicate 32 0, localShare := none, peerShare := none
    peerFinished := none }

theorem establish_eq_ok {ack : Option ClaimantEffect} {effects : List ClaimantEffect} :
    establish ack s = .ok effects s' ↔ ∃ pending frame channel relay v,
      s.pendingChannel = some pending ∧ s.peerFinished = some frame ∧
      pending.confirm frame = .ok channel ∧ s.relay = some relay ∧ relay.awaitingAck = false ∧
      s.bodyVerifier = some v ∧
      effects = ack.toList ++ [.established channel.transcriptHash] ∧ s' = s.opened channel v := by
  simp only [establish, Call.bind_eq_ok, Call.get_eq_ok, Call.orThrow_eq_ok, Call.set_eq_ok,
    Call.ofExcept_eq_ok, Call.guard_eq_ok, Call.pure_eq_ok, Bool.not_eq_true]
  constructor
  · rintro ⟨_, _, ⟨rfl, rfl⟩, frame, _, ⟨hframe, rfl⟩, _, _, rfl, pending, _, ⟨hpending, rfl⟩,
      channel, _, ⟨hconfirm, rfl⟩, relay, _, ⟨hrelay, rfl⟩, hwaiting, v, _, ⟨hverifier, rfl⟩, _, _,
      rfl, rfl, rfl⟩
    exact ⟨pending, frame, channel, relay, v, hpending, hframe, hconfirm, hrelay, hwaiting,
      hverifier, rfl, rfl⟩
  · rintro ⟨pending, frame, channel, relay, v, hpending, hframe, hconfirm, hrelay, hwaiting,
      hverifier, rfl, rfl⟩
    exact ⟨s, s, ⟨rfl, rfl⟩, frame, s, ⟨hframe, rfl⟩, ⟨⟩, _, rfl, pending, _, ⟨hpending, rfl⟩,
      channel, _, ⟨hconfirm, rfl⟩, relay, _, ⟨hrelay, rfl⟩, hwaiting, v, _, ⟨hverifier, rfl⟩, ⟨⟩, _,
      rfl, rfl, rfl⟩

/-! ### Handshake messages -/

variable [BodyVerifier V]

/-- A peer frame before the application phase: sequenced, acknowledged, and kept for the
phase it belongs to. -/
theorem peerFrame_handshake {peerSeq : UInt8} {body : Bytes} {now : UInt64}
    {effects : List ClaimantEffect} (hphase : s.phase ≠ .established) :
    peerFrame peerSeq body now s = .ok effects s' ↔ ∃ frame relay relay₁ ack,
      decodeFrame body = .ok frame ∧ s.relay = some relay ∧
      RelayState.acceptPeerSequence peerSeq relay = .ok () relay₁ ∧ ackFrame peerSeq = .ok ack ∧
      (s.phase = .shareSent ∧ Bootstrap.cpaceFrom .allocator frame = true ∧
          (relay₁.awaitingAck = true ∧ effects = [ack] ∧
              s' = { s.withRelay relay₁ with peerShare := some frame } ∨
            relay₁.awaitingAck = false ∧ ∃ put, effects = [ack, put] ∧
              prepareFinished { s.withRelay relay₁ with peerShare := some frame } = .ok put s') ∨
        s.phase = .finishedSent ∧ Bootstrap.finishedFrom .allocator frame = true ∧
          (relay₁.awaitingAck = true ∧ effects = [ack] ∧
              s' = { s.withRelay relay₁ with peerFinished := some frame } ∨
            relay₁.awaitingAck = false ∧
              establish (some ack) { s.withRelay relay₁ with peerFinished := some frame } =
                .ok effects s')) := by
  unfold peerFrame
  simp only [Call.bind_eq_ok, Call.ofExcept_eq_ok, Call.get_eq_ok]
  constructor
  · rintro ⟨frame, _, ⟨hframe, rfl⟩, _, _, ⟨rfl, rfl⟩, h⟩
    rw [if_neg hphase] at h
    simp only [Call.bind_eq_ok, onRelay_eq_ok, Call.ofExcept_eq_ok, Call.get_eq_ok] at h
    obtain ⟨_, s₁, ⟨relay, relay₁, hrelay, haccept, hs₁⟩, ack, _, ⟨hack, rfl⟩, _, _, ⟨rfl, rfl⟩, h⟩ := h
    obtain rfl : s₁ = s.withRelay relay₁ := hs₁
    refine ⟨frame, relay, relay₁, ack, hframe, hrelay, haccept, hack, ?_⟩
    by_cases hshare : (s.withRelay relay₁).phase = .shareSent
    · simp only [hshare] at h
      simp only [Call.guard_eq_ok, Call.bind_eq_ok, Call.modify_eq_ok, Call.orThrow_eq_ok,
        Bool.not_eq_true', Bool.not_eq_false] at h
      obtain ⟨hfrom, _, _, rfl, _, _, ⟨hkept, rfl⟩, h⟩ := h
      obtain rfl := Option.some.inj hkept
      refine .inl ⟨hshare, hfrom, ?_⟩
      by_cases hwaiting : relay₁.awaitingAck = true
      · rw [if_pos hwaiting, Call.pure_eq_ok] at h
        exact .inl ⟨hwaiting, h.1.symm, h.2.symm⟩
      · rw [if_neg hwaiting, Call.bind_eq_ok] at h
        obtain ⟨put, _, hput, h⟩ := h
        obtain ⟨rfl, rfl⟩ := Call.pure_eq_ok.mp h
        exact .inr ⟨by simpa using hwaiting, put, rfl, hput⟩
    by_cases hfinished : (s.withRelay relay₁).phase = .finishedSent
    · simp only [hfinished] at h
      simp only [Call.guard_eq_ok, Call.bind_eq_ok, Call.modify_eq_ok, Call.orThrow_eq_ok,
        Bool.not_eq_true', Bool.not_eq_false] at h
      obtain ⟨hfrom, _, _, rfl, _, _, ⟨hkept, rfl⟩, h⟩ := h
      obtain rfl := Option.some.inj hkept
      refine .inr ⟨hfinished, hfrom, ?_⟩
      by_cases hwaiting : relay₁.awaitingAck = true
      · rw [if_pos hwaiting, Call.pure_eq_ok] at h
        exact .inl ⟨hwaiting, h.1.symm, h.2.symm⟩
      · rw [if_neg hwaiting] at h
        exact .inr ⟨by simpa using hwaiting, h⟩
    · cases hcase : (s.withRelay relay₁).phase <;> simp_all
  · rintro ⟨frame, relay, relay₁, ack, hframe, hrelay, haccept, hack, h⟩
    refine ⟨frame, s, ⟨hframe, rfl⟩, s, s, ⟨rfl, rfl⟩, ?_⟩
    rw [if_neg hphase]
    simp only [Call.bind_eq_ok, onRelay_eq_ok, Call.ofExcept_eq_ok, Call.get_eq_ok]
    refine ⟨⟨⟩, s.withRelay relay₁, ⟨relay, relay₁, hrelay, haccept, rfl⟩, ack, _, ⟨hack, rfl⟩, _, _,
      ⟨rfl, rfl⟩, ?_⟩
    obtain ⟨hcase, hfrom, h⟩ | ⟨hcase, hfrom, h⟩ := h
    · have hcase' : (s.withRelay relay₁).phase = .shareSent := hcase
      simp only [hcase']
      simp only [Call.guard_eq_ok, Call.bind_eq_ok, Call.modify_eq_ok, Call.orThrow_eq_ok,
        Bool.not_eq_true', Bool.not_eq_false]
      refine ⟨hfrom, ⟨⟩, _, rfl, relay₁, _, ⟨rfl, rfl⟩, ?_⟩
      obtain ⟨hwaiting, rfl, rfl⟩ | ⟨hwaiting, put, rfl, hput⟩ := h
      · rw [if_pos hwaiting]
        rfl
      · rw [if_neg (by simp [hwaiting]), Call.bind_eq_ok]
        exact ⟨put, s', hput, rfl⟩
    · have hcase' : (s.withRelay relay₁).phase = .finishedSent := hcase
      simp only [hcase']
      simp only [Call.guard_eq_ok, Call.bind_eq_ok, Call.modify_eq_ok, Call.orThrow_eq_ok,
        Bool.not_eq_true', Bool.not_eq_false]
      refine ⟨hfrom, ⟨⟩, _, rfl, relay₁, _, ⟨rfl, rfl⟩, ?_⟩
      obtain ⟨hwaiting, rfl, rfl⟩ | ⟨hwaiting, h⟩ := h
      · rw [if_pos hwaiting]
        rfl
      · rw [if_neg (by simp [hwaiting])]
        exact h

omit [BodyVerifier V] in
/-- An acknowledgement before the application phase: repeated, or the end of the wait
for the frame of the phase. -/
theorem localAck_handshake {sequence : UInt8} {effects : List ClaimantEffect}
    (hphase : s.phase ≠ .established) :
    localAck sequence s = .ok effects s' ↔ ∃ relay, s.relay = some relay ∧
      (relay.acknowledgementAlreadyApplied sequence = true ∧ effects = [] ∧ s' = s ∨
        relay.acknowledgementAlreadyApplied sequence = false ∧
        ∃ relay₁, RelayState.acknowledgeBootstrapFrame sequence relay = .ok () relay₁ ∧
          (s.phase = .shareSent ∧
              (s.peerShare.isSome = true ∧ (∃ put, effects = [put] ∧
                  prepareFinished (s.withRelay relay₁) = .ok put s') ∨
                s.peerShare = none ∧ s.peerFinished = none ∧ effects = [] ∧
                  s' = s.withRelay relay₁) ∨
            s.phase = .finishedSent ∧
              (s.peerFinished = none ∧ effects = [] ∧ s' = s.withRelay relay₁ ∨
                s.peerFinished.isSome = true ∧
                  establish none (s.withRelay relay₁) = .ok effects s'))) := by
  unfold localAck
  simp only [Call.bind_eq_ok, Call.get_eq_ok, Call.orThrow_eq_ok]
  constructor
  · rintro ⟨_, _, ⟨rfl, rfl⟩, relay, _, ⟨hrelay, rfl⟩, h⟩
    refine ⟨relay, hrelay, ?_⟩
    by_cases happlied : relay.acknowledgementAlreadyApplied sequence = true
    · rw [if_pos happlied, Call.pure_eq_ok] at h
      exact .inl ⟨happlied, h.1.symm, h.2.symm⟩
    rw [if_neg happlied, if_neg hphase, Call.bind_eq_ok] at h
    obtain ⟨_, s₁, hmove, h⟩ := h
    obtain ⟨_, relay₁, hrelay', hack, hs₁⟩ := onRelay_eq_ok.mp hmove
    obtain rfl := Option.some.inj (hrelay.symm.trans hrelay')
    obtain rfl : s₁ = s.withRelay relay₁ := hs₁
    refine .inr ⟨by simpa using happlied, relay₁, hack, ?_⟩
    cases hcase : s.phase with
    | shareSent =>
      refine .inl ⟨rfl, ?_⟩
      simp only [hcase] at h
      by_cases hpeer : s.peerShare.isSome = true
      · rw [if_pos hpeer, Call.bind_eq_ok] at h
        obtain ⟨put, _, hput, h⟩ := h
        obtain ⟨rfl, rfl⟩ := Call.pure_eq_ok.mp h
        exact .inl ⟨hpeer, put, rfl, hput⟩
      · rw [if_neg hpeer] at h
        split_ifs at h with hfinished
        · obtain ⟨rfl, rfl⟩ := Call.pure_eq_ok.mp h
          exact .inr ⟨by simpa using hpeer, by simpa using hfinished, rfl, rfl⟩
        · exact (Call.throw_eq_ok.mp h).elim
    | finishedSent =>
      refine .inr ⟨rfl, ?_⟩
      simp only [hcase] at h
      split_ifs at h with hfinished
      · obtain ⟨rfl, rfl⟩ := Call.pure_eq_ok.mp h
        exact .inl ⟨by simpa using hfinished, rfl, rfl⟩
      · exact .inr ⟨by simpa [Option.isSome_iff_ne_none] using hfinished, h⟩
    | _ => simp [hcase] at h
  · rintro ⟨relay, hrelay, h⟩
    refine ⟨s, s, ⟨rfl, rfl⟩, relay, s, ⟨hrelay, rfl⟩, ?_⟩
    obtain ⟨happlied, rfl, rfl⟩ | ⟨happlied, relay₁, hack, h⟩ := h
    · rw [if_pos happlied]
      rfl
    rw [if_neg (by simp [happlied]), if_neg hphase, Call.bind_eq_ok]
    refine ⟨⟨⟩, s.withRelay relay₁, onRelay_eq_ok.mpr ⟨relay, relay₁, hrelay, hack, rfl⟩, ?_⟩
    obtain ⟨hcase, h⟩ | ⟨hcase, h⟩ := h
    · simp only [hcase]
      obtain ⟨hpeer, put, rfl, hput⟩ | ⟨hpeer, hfinished, rfl, rfl⟩ := h
      · rw [if_pos hpeer, Call.bind_eq_ok]
        exact ⟨put, s', hput, rfl⟩
      · rw [if_neg (by simp [hpeer]), if_pos (by simp [hfinished])]
        rfl
    · simp only [hcase]
      obtain ⟨hfinished, rfl, rfl⟩ | ⟨hfinished, h⟩ := h
      · rw [if_pos (by simp [hfinished])]
        rfl
      · rw [if_neg (by simpa [Option.isSome_iff_ne_none] using hfinished)]
        exact h

/-! ### Progress before the application phase -/

section Starting

omit [BodyVerifier V]

theorem Stage.starting_of (h : s.Stage) (hestablished : s.phase ≠ .established)
    (hawaiting : s.phase ≠ .awaitProfileAuthorisation) : s.Starting := by
  cases h with
  | starting hs => exact hs
  | awaiting _ hphase => exact absurd hphase hawaiting
  | running _ hphase => exact absurd hphase hestablished

theorem Starting.joined (h : s.Starting) {relay : RelayState} (hrelay : s.relay = some relay) :
    s.phase = .shareSent ∨ s.phase = .finishedSent := by
  by_contra hphase
  obtain ⟨hshare, hfinished⟩ := not_or.mp hphase
  cases hrelay.symm.trans (h.unjoined hshare hfinished)

theorem Starting.withRelay (h : s.Starting) {relay relay₁ : RelayState}
    (hrelay : s.relay = some relay) (huncached : relay₁.cachedOutbound = none) :
    (s.withRelay relay₁).Starting := by
  refine ⟨h.endpoint, fun hshare hfinished => ?_, h.ungated, h.empty, ?_, h.side⟩
  · exact ((h.joined hrelay).elim hshare hfinished).elim
  · rintro _ ⟨⟩
    exact huncached

theorem Starting.accepted (h : s.Starting) {peerSeq : UInt8} {relay relay₁ : RelayState}
    (hrelay : s.relay = some relay)
    (haccept : RelayState.acceptPeerSequence peerSeq relay = .ok () relay₁) :
    (s.withRelay relay₁).Starting := by
  refine h.withRelay hrelay ?_
  obtain ⟨-, next, -, rfl⟩ := RelayState.acceptPeerSequence_eq_ok.mp haccept
  exact h.uncached relay hrelay

theorem Starting.acknowledged (h : s.Starting) {sequence : UInt8} {relay relay₁ : RelayState}
    (hrelay : s.relay = some relay)
    (hack : RelayState.acknowledgeBootstrapFrame sequence relay = .ok () relay₁) :
    (s.withRelay relay₁).Starting := by
  refine h.withRelay hrelay ?_
  obtain ⟨-, -, huncached, rfl⟩ := RelayState.acknowledgeBootstrapFrame_eq_ok.mp hack
  exact huncached

theorem Starting.finished (h : s.Starting) {put : ClaimantEffect}
    (hfinished : prepareFinished s = .ok put s') : s'.Starting ∧ s'.phase = .finishedSent ∧
      put.Bare ∧ ∃ relay relay' n, s.relay = some relay ∧ s'.relay = some relay' ∧
        relay.Step (.issue n) relay' := by
  obtain ⟨state, localShare, peerShare, peerMessage, pending, sequence, relay, relay', -, -, -, -,
    hschedule, hrelay, hqueue, hput, rfl⟩ := prepareFinished_eq_ok.mp hfinished
  refine ⟨⟨h.endpoint, by simp, h.ungated, h.empty, ?_, ?_⟩, rfl, bare_of_putFrame hput rfl, relay,
    relay', _, hrelay, rfl, .queued hqueue⟩
  · rintro _ ⟨⟩
    obtain ⟨-, huncached, -, next, -, rfl⟩ := RelayState.queueBootstrapFrame_eq_ok.mp hqueue
    exact huncached
  · rintro _ ⟨⟩
    exact schedule_side hschedule

theorem Starting.established (h : s.Starting) {ack : Option ClaimantEffect}
    {effects : List ClaimantEffect} (hack : ∀ effect ∈ ack, effect.Putless)
    (hestablish : establish ack s = .ok effects s') :
    ∃ e : Established V, s'.application = some e ∧ Confirmed e ∧ e.endpoint.carrier = s'.carrier ∧
      s'.phase = .awaitProfileAuthorisation ∧ s'.persistenceGate = none ∧ s'.afterPersist = [] ∧
      s'.relay = s.relay ∧ ∀ effect ∈ effects, effect.Putless := by
  obtain ⟨pending, frame, channel, relay, v, hpending, -, hconfirm, hrelay, hwaiting, -, rfl, rfl⟩ :=
    establish_eq_ok.mp hestablish
  refine ⟨⟨Endpoint.new .claimant s.carrier v, channel, relay⟩,
    application_eq_some.mpr ⟨rfl, rfl, hrelay⟩,
    ⟨⟨s.carrier, v, rfl⟩, ⟨pending, frame, hconfirm, h.side pending hpending⟩, hwaiting,
      h.uncached relay hrelay⟩, rfl, rfl, h.ungated, h.empty, rfl, ?_⟩
  intro effect heffect
  obtain heffect | heffect := List.mem_append.mp heffect
  · exact hack effect (by simpa using heffect)
  · rw [List.mem_singleton.mp heffect]
    exact ⟨rfl, rfl⟩

end Starting

variable {key : Octets 32} {c : ClaimantCall}

theorem peerFrame_progress (hs : s.Stage) {peerSeq : UInt8} {body : Bytes} {now : UInt64}
    {effects : List ClaimantEffect} (hphase : s.phase ≠ .established)
    (h : peerFrame peerSeq body now s = .ok effects s') : Progress key s c effects s' := by
  obtain ⟨frame, relay, relay₁, ack, -, hrelay, haccept, hack, h⟩ := (peerFrame_handshake hphase).mp h
  have hput := putless_of_ackFrame hack
  have haccepted : relay.Step (.take peerSeq.toNat) relay₁ := .accepted haccept
  obtain ⟨hcase, -, h⟩ | ⟨hcase, -, h⟩ := h
  · have hstarting := hs.starting_of hphase (by simp [hcase])
    have hkept : ({ s.withRelay relay₁ with peerShare := some frame } :
        ClaimantSession V).Starting := by
      have hmoved := hstarting.accepted hrelay haccept
      exact ⟨hmoved.endpoint, hmoved.unjoined, hmoved.ungated, hmoved.empty, hmoved.uncached,
        hmoved.side⟩
    obtain ⟨-, rfl, rfl⟩ | ⟨-, put, rfl, hfinished⟩ := h
    · exact .bootstrapped hstarting hkept (by simp [withRelay, hcase])
        (by simp [withRelay, hcase]) (RelayState.follows_step hrelay rfl haccepted)
        (by simpa using hput.bare)
    · obtain ⟨hfinal, hphase', hbare, _, relay', n, hrelay', hrelay'', hqueue⟩ :=
        hkept.finished hfinished
      obtain rfl := Option.some.inj hrelay'
      exact .bootstrapped hstarting hfinal (by simp [hphase']) (by simp [hphase'])
        ((RelayState.follows_step hrelay rfl haccepted).append
          (RelayState.follows_step rfl hrelay'' hqueue)) (by simpa using ⟨hput.bare, hbare⟩)
  · have hstarting := hs.starting_of hphase (by simp [hcase])
    have hkept : ({ s.withRelay relay₁ with peerFinished := some frame } :
        ClaimantSession V).Starting := by
      have hmoved := hstarting.accepted hrelay haccept
      exact ⟨hmoved.endpoint, hmoved.unjoined, hmoved.ungated, hmoved.empty, hmoved.uncached,
        hmoved.side⟩
    obtain ⟨-, rfl, rfl⟩ | ⟨-, hestablish⟩ := h
    · exact .bootstrapped hstarting hkept (by simp [withRelay, hcase])
        (by simp [withRelay, hcase]) (RelayState.follows_step hrelay rfl haccepted)
        (by simpa using hput.bare)
    · obtain ⟨e, he, hconfirmed, hcarrier, hphase', hgate, hempty, hrelay', heffects⟩ :=
        hkept.established (by simpa using hput) hestablish
      exact .confirmed hstarting he hconfirmed hcarrier hphase' hgate hempty
        (RelayState.follows_step hrelay hrelay' haccepted) heffects

theorem localAck_progress (hs : s.Stage) {sequence : UInt8} {effects : List ClaimantEffect}
    (hphase : s.phase ≠ .established) (h : localAck sequence s = .ok effects s') :
    Progress key s c effects s' := by
  obtain ⟨relay, hrelay, ⟨-, rfl, rfl⟩ | ⟨-, relay₁, hack, h⟩⟩ := (localAck_handshake hphase).mp h
  · exact .silent (by intros; contradiction)
  have hacknowledged : relay.Step (.acknowledge sequence.toNat) relay₁ := .confirmed hack
  obtain ⟨hcase, h⟩ | ⟨hcase, h⟩ := h
  · have hstarting := hs.starting_of hphase (by simp [hcase])
    have hmoved := hstarting.acknowledged hrelay hack
    obtain ⟨-, put, rfl, hfinished⟩ | ⟨-, -, rfl, rfl⟩ := h
    · obtain ⟨hfinal, hphase', hbare, _, relay', n, hrelay', hrelay'', hqueue⟩ :=
        hmoved.finished hfinished
      obtain rfl := Option.some.inj hrelay'
      exact .bootstrapped hstarting hfinal (by simp [hphase']) (by simp [hphase'])
        ((RelayState.follows_step hrelay rfl hacknowledged).append
          (RelayState.follows_step rfl hrelay'' hqueue)) (by simpa using hbare)
    · exact .bootstrapped hstarting hmoved (by simp [withRelay, hcase])
        (by simp [withRelay, hcase]) (RelayState.follows_step hrelay rfl hacknowledged)
        (by intros; contradiction)
  · have hstarting := hs.starting_of hphase (by simp [hcase])
    have hmoved := hstarting.acknowledged hrelay hack
    obtain ⟨-, rfl, rfl⟩ | ⟨-, hestablish⟩ := h
    · exact .bootstrapped hstarting hmoved (by simp [withRelay, hcase])
        (by simp [withRelay, hcase]) (RelayState.follows_step hrelay rfl hacknowledged)
        (by intros; contradiction)
    · obtain ⟨e, he, hconfirmed, hcarrier, hphase', hgate, hempty, hrelay', heffects⟩ :=
        hmoved.established (by simp) hestablish
      exact .confirmed hstarting he hconfirmed hcarrier hphase' hgate hempty
        (RelayState.follows_step hrelay hrelay' hacknowledged) heffects

/-! ### Progress of an open session -/

omit [BodyVerifier V] in
theorem Stage.running_of (h : s.Stage) (hphase : s.phase = .established) :
    ∃ e : Established V, s.Drives e ∧ (s.persistenceGate = none → s.afterPersist = []) := by
  cases h with
  | starting _ hestablished => exact absurd hphase hestablished
  | awaiting _ hawaiting => cases hphase.symm.trans hawaiting
  | running hdrives _ hempty => exact ⟨_, hdrives, hempty⟩

theorem receiveObject_eq_ok {object : Object} {now : UInt64} {advance : Advance}
    (h : receiveObject object now s = .ok advance s') :
    ∃ endpoint endpoint', s.endpoint = some endpoint ∧ s' = { s with endpoint := some endpoint' } ∧
      ((∃ check, preOffer endpoint.phase = true ∧
          Endpoint.receiveOffer object check endpoint = .ok advance endpoint') ∨
        Endpoint.receive object endpoint = .ok advance endpoint') := by
  simp only [receiveObject, Call.bind_eq_ok, Call.get_eq_ok, Call.orThrow_eq_ok] at h
  obtain ⟨_, _, ⟨rfl, rfl⟩, endpoint, _, ⟨hendpoint, rfl⟩, h⟩ := h
  split_ifs at h with hpre hoffer
  · exact (Call.throw_eq_ok.mp h).elim
  · simp only [Call.bind_eq_ok, Call.orThrow_eq_ok, Call.ofExcept_eq_ok] at h
    obtain ⟨verifier, _, ⟨-, rfl⟩, check, _, ⟨-, rfl⟩, h⟩ := h
    obtain ⟨_, endpoint', hendpoint', hreceive, rfl⟩ := onEndpoint_eq_ok.mp h
    obtain rfl := Option.some.inj (hendpoint.symm.trans hendpoint')
    exact ⟨endpoint, endpoint', hendpoint, rfl, .inl ⟨check, hpre, hreceive⟩⟩
  · obtain ⟨_, endpoint', hendpoint', hreceive, rfl⟩ := onEndpoint_eq_ok.mp h
    obtain rfl := Option.some.inj (hendpoint.symm.trans hendpoint')
    exact ⟨endpoint, endpoint', hendpoint, rfl, .inr hreceive⟩

/-- An own relay frame taken, with what was opened from it. -/
theorem peerApplicationFrame_progress {e : Established V} {peerSeq : UInt8} {frame : Frame}
    {now : UInt64} {effects : List ClaimantEffect} (hphase : s.phase = .established)
    (he : s.application = some e) (hgate : s.persistenceGate = none)
    (hdurable : durable e.endpoint.phase = false)
    (h : peerApplicationFrame peerSeq frame now s = .ok effects s') :
    Progress key s c effects s' := by
  obtain ⟨hendpoint, hchannel, hrelay⟩ := application_eq_some.mp he
  simp only [peerApplicationFrame, Call.bind_eq_ok, onRelay_eq_ok, onChannel_eq_ok,
    Call.ofExcept_eq_ok] at h
  obtain ⟨_, _, ⟨relay, relay', hrelay', haccept, rfl⟩, plaintext, _,
    ⟨channel, channel', hchannel', hopen, rfl⟩, object, _, ⟨hobject, rfl⟩, advance, s₁, hreceive,
    ack, _, ⟨hack, rfl⟩, h⟩ := h
  obtain rfl := Option.some.inj (hrelay.symm.trans hrelay')
  obtain rfl := Option.some.inj (hchannel.symm.trans hchannel')
  obtain ⟨endpoint, endpoint', hendpoint', rfl, hreceived⟩ := receiveObject_eq_ok hreceive
  obtain rfl := Option.some.inj (hendpoint.symm.trans hendpoint')
  have htakes : Takes e object ⟨endpoint', channel', relay'⟩ :=
    .intro haccept hopen hobject hreceived
  have hput := putless_of_ackFrame hack
  cases advance with
  | displayIntent display =>
    simp only [Call.bind_eq_ok, Call.modify_eq_ok, Call.pure_eq_ok] at h
    obtain ⟨_, _, rfl, rfl, rfl⟩ := h
    exact .taken hphase he hgate hdurable htakes
      (by simpa using ⟨hput, (⟨rfl, rfl⟩ : ClaimantEffect.Putless (.displayIntent display))⟩)
  | advanced =>
    obtain ⟨rfl, rfl⟩ := Call.pure_eq_ok.mp h
    exact .taken hphase he hgate hdurable htakes
      (by simpa using ⟨hput, (⟨rfl, rfl⟩ : ClaimantEffect.Putless (.receivedObject object))⟩)
  | exactRetransmission =>
    obtain ⟨rfl, rfl⟩ := Call.pure_eq_ok.mp h
    exact .taken hphase he hgate hdurable htakes (by simpa using hput)

omit [BodyVerifier V] in
/-- An acknowledgement in the application phase: repeated, or the end of the wait for
the cached frame. -/
theorem localAck_established {e : Established V} {sequence : UInt8}
    {effects : List ClaimantEffect} (hphase : s.phase = .established)
    (he : s.application = some e) : localAck sequence s = .ok effects s' ↔ effects = [] ∧
      (e.relay.acknowledgementAlreadyApplied sequence = true ∧ s' = s ∨
        e.relay.acknowledgementAlreadyApplied sequence = false ∧
          ∃ relay, RelayState.acknowledgeApplicationFrame sequence e.relay = .ok () relay ∧
            s' = s.withApplication { e with relay }) := by
  obtain ⟨hendpoint, hchannel, hrelay⟩ := application_eq_some.mp he
  have hmoved : ∀ relay : RelayState,
      s.withApplication { e with relay } = { s with relay := some relay } := by
    intro relay
    rw [← withApplication_self he]
    rfl
  unfold localAck
  rw [Call.run_bind (Call.run_get s), hrelay, Call.run_bind (Call.run_orThrow_some _ _ s)]
  by_cases happlied : e.relay.acknowledgementAlreadyApplied sequence = true
  · rw [if_pos happlied, Call.pure_eq_ok]
    simp [happlied, eq_comm]
  rw [if_neg happlied, if_pos hphase]
  simp only [Call.bind_eq_ok, onRelay_eq_ok, Call.pure_eq_ok, happlied, Bool.false_eq_true,
    false_and, false_or]
  constructor
  · rintro ⟨_, _, ⟨relay, relay', hrelay', hack, rfl⟩, rfl, rfl⟩
    obtain rfl := Option.some.inj (hrelay.symm.trans hrelay')
    exact ⟨rfl, by simp, relay', hack, (hmoved relay').symm⟩
  · rintro ⟨rfl, -, relay', hack, rfl⟩
    exact ⟨⟨⟩, _, ⟨e.relay, relay', hrelay, hack, rfl⟩, rfl, (hmoved relay').symm⟩

/-- A relay message before the final approval. -/
theorem receive_progress (hs : s.Stage) {input : ServerInput} {now : UInt64}
    {effects : List ClaimantEffect} (h : receive input now s = .ok effects s') :
    Progress key s c effects s' := by
  unfold receive at h
  rw [Call.run_bind (Call.run_get s), Call.guard_eq_ok, Call.guard_eq_ok] at h
  obtain ⟨hready, hlive, h⟩ := h
  simp only [not_or, Bool.not_eq_true, Option.isSome_eq_false_iff, Option.isNone_iff_eq_none]
    at hready
  split_ifs at h with hexpired
  · simp at h
  rw [guarded_eq_ok] at h
  cases input with
  | error e => exact (Call.throw_eq_ok.mp h).elim
  | ok message =>
    obtain ⟨message, hmessage⟩ := message
    have hdurable : ∀ e : Established V, s.application = some e →
        durable e.endpoint.phase = false := by
      intro e he
      have hnone := hready.2
      unfold hasDurableEndpointPhase at hnone
      rw [(application_eq_some.mp he).1] at hnone
      exact hnone
    dsimp only [applyServer] at h
    rw [Call.run_bind (Call.run_get s)] at h
    cases message with
    | welcome =>
      dsimp only at h
      split_ifs at h with hphase
      · have hstarting := hs.starting_of (by simp [hphase]) (by simp [hphase])
        obtain ⟨presence, token, -, -, rfl, rfl⟩ := welcomed_eq_ok.mp h
        have hrelay := hstarting.unjoined (by simp [hphase]) (by simp [hphase])
        exact .bootstrapped hstarting
          ⟨hstarting.endpoint, fun _ _ => hrelay, hstarting.ungated, hstarting.empty,
            hstarting.uncached, hstarting.side⟩ (by simp) (by simp) (RelayState.follows_self _)
          (bare_singleton ⟨rfl, rfl⟩)
      · exact (Call.throw_eq_ok.mp h).elim
    | claimedV2 mailboxId membershipToken expiresAt =>
      dsimp only at h
      split_ifs at h with hphase
      · have hstarting := hs.starting_of (by simp [hphase]) (by simp [hphase])
        have hrelay := hstarting.unjoined (by simp [hphase]) (by simp [hphase])
        obtain ⟨state, share, sequence, relay, put, hshare, hqueue, hput, rfl, rfl⟩ :=
          claimed_eq_ok h
        have huncached : relay.cachedOutbound = none := by
          obtain ⟨-, hnew, -, next, -, rfl⟩ := RelayState.queueBootstrapFrame_eq_ok.mp hqueue
          exact hnew
        have hjoined : RelayState.Follows s.relay [.issue sequence.toNat] (some relay) := by
          rw [hrelay]
          exact .joined (.one (.queued hqueue))
        refine .bootstrapped hstarting ⟨hstarting.endpoint, by simp, hstarting.ungated,
          hstarting.empty, ?_, hstarting.side⟩ (by simp) (by simp) hjoined ?_
        · rintro _ ⟨⟩
          exact huncached
        · simpa using bare_of_putFrame hput (share_plain hshare)
      · exact (Call.throw_eq_ok.mp h).elim
    | frame peerSeq body =>
      dsimp only at h
      by_cases hphase : s.phase = .established
      · obtain ⟨e, ⟨he, -, -, -⟩, -⟩ := hs.running_of hphase
        unfold peerFrame at h
        simp only [Call.bind_eq_ok, Call.ofExcept_eq_ok, Call.get_eq_ok] at h
        obtain ⟨frame, _, ⟨-, rfl⟩, _, _, ⟨rfl, rfl⟩, h⟩ := h
        rw [if_pos hphase] at h
        exact peerApplicationFrame_progress hphase he hready.1 (hdurable e he) h
      · exact peerFrame_progress hs hphase h
    | acknowledged seq =>
      dsimp only at h
      by_cases hphase : s.phase = .established
      · obtain ⟨e, ⟨he, -, -, -⟩, -⟩ := hs.running_of hphase
        obtain ⟨rfl, ⟨-, rfl⟩ | ⟨-, relay, hack, rfl⟩⟩ := (localAck_established hphase he).mp h
        · exact .silent (by intros; contradiction)
        · exact .acknowledged hphase he hready.1 (hdurable e he) hack
      · exact localAck_progress hs hphase h
    | pong =>
      obtain ⟨rfl, rfl⟩ := Call.pure_eq_ok.mp h
      exact .silent (by intros; contradiction)
    | closed reason =>
      simp only [Call.bind_eq_ok, Call.modify_eq_ok, Call.pure_eq_ok] at h
      obtain ⟨_, _, rfl, rfl, rfl⟩ := h
      exact .ended (putless_singleton ⟨rfl, rfl⟩)
    | error code =>
      simp only [Call.bind_eq_ok, Call.modify_eq_ok, Call.pure_eq_ok] at h
      obtain ⟨_, _, rfl, rfl, rfl⟩ := h
      exact .ended (putless_singleton ⟨rfl, rfl⟩)
    | _ => exact (Call.throw_eq_ok.mp h).elim

/-! ### Own objects -/

theorem prepareFrame_eq_ok {object : Object} {e e' : Established V} {sequence : UInt8}
    {frame : Frame} : prepareFrame object e = .ok (sequence, frame) e' ↔
      Established.prepareOutbound object e = .ok frame e' ∧
        e'.relay.cachedApplicationSequence = .ok sequence := by
  simp only [prepareFrame, Call.bind_eq_ok, Call.get_eq_ok, Call.ofExcept_eq_ok, Call.pure_eq_ok,
    Prod.mk.injEq]
  constructor
  · rintro ⟨_, _, hprepare, _, _, ⟨rfl, rfl⟩, _, _, ⟨hsequence, rfl⟩, ⟨rfl, rfl⟩, rfl⟩
    exact ⟨hprepare, hsequence⟩
  · rintro ⟨hprepare, hsequence⟩
    exact ⟨frame, e', hprepare, e', e', ⟨rfl, rfl⟩, sequence, e', ⟨hsequence, rfl⟩, ⟨rfl, rfl⟩, rfl⟩

theorem prepareApplicationObject_progress {object : Object}
    {effects : List ClaimantEffect} (h : prepareApplicationObject object s = .ok effects s') :
    Progress key s (.prepareApplicationObject object) effects s' := by
  simp only [prepareApplicationObject, Call.bind_eq_ok, Call.get_eq_ok, Call.guard_eq_ok,
    onApplication_eq_ok, Call.ofExcept_eq_ok, Call.pure_eq_ok, Prod.exists] at h
  obtain ⟨_, _, ⟨rfl, rfl⟩, hready, sequence, frame, _, ⟨e, e', he, hprepare, rfl⟩, put, _,
    ⟨hput, rfl⟩, rfl, rfl⟩ := h
  simp only [not_or, ne_eq, not_not, Bool.not_eq_true, Bool.not_eq_true', Bool.not_eq_false,
    Option.isSome_eq_false_iff, Option.isNone_iff_eq_none] at hready
  obtain ⟨hgate, hphase, hkind⟩ := hready
  obtain ⟨hprepare, hsequence⟩ := prepareFrame_eq_ok.mp hprepare
  obtain ⟨body, hbody, -, rfl⟩ := putFrame_eq_ok.mp hput
  exact .sent rfl hphase he hgate hkind (.intro hprepare hsequence hbody)

theorem checkpointCurrent_eq_ok {e : Established V} {nonce : Octets 12} {now : UInt64}
    {expiry : Option UInt64} {after effects : List ClaimantEffect} (he : s.application = some e) :
    checkpointCurrent key nonce now expiry after s = .ok effects s' ↔
      s.persistenceGate = none ∧ s.afterPersist = [] ∧
        ∃ checkpoint endpoint, Endpoint.sealCheckpoint e.channel e.relay key
            (saturatingSucc e.endpoint.checkpointGeneration) expiry nonce now e.endpoint =
            .ok checkpoint endpoint ∧
          effects = [.checkpoint (saturatingSucc e.endpoint.checkpointGeneration) checkpoint] ∧
          s' = { s.withApplication { e with endpoint } with
            persistenceGate := some (saturatingSucc e.endpoint.checkpointGeneration)
            afterPersist := after } := by
  simp only [checkpointCurrent, Call.bind_eq_ok, Call.get_eq_ok, Call.guard_eq_ok,
    onApplication_eq_ok, Established.onEndpoint_eq_ok, Call.pure_eq_ok, Call.modify_eq_ok,
    Prod.exists, Prod.mk.injEq, not_or, ne_eq, not_not, Bool.not_eq_true,
    Option.isSome_eq_false_iff, Option.isNone_iff_eq_none]
  constructor
  · rintro ⟨_, _, ⟨rfl, rfl⟩, ⟨hgate, hempty⟩, generation, checkpoint, _, ⟨e₁, _, he₁, ⟨_, _,
      ⟨rfl, rfl⟩, _, _, ⟨endpoint, hseal, rfl⟩, ⟨rfl, rfl⟩, rfl⟩, rfl⟩, _, _, rfl, rfl, rfl⟩
    obtain rfl := Option.some.inj (he.symm.trans he₁)
    exact ⟨hgate, hempty, _, endpoint, hseal, rfl, rfl⟩
  · rintro ⟨hgate, hempty, checkpoint, endpoint, hseal, rfl, rfl⟩
    exact ⟨s, s, ⟨rfl, rfl⟩, ⟨hgate, hempty⟩, _, checkpoint, _, ⟨e, _, he, ⟨e, e, ⟨rfl, rfl⟩,
      checkpoint, _, ⟨endpoint, hseal, rfl⟩, ⟨rfl, rfl⟩, rfl⟩, rfl⟩, ⟨⟩, _, rfl, rfl, rfl⟩

theorem prepareFinalApproval_progress {object : Object} {nonce : Octets 12}
    {now : UInt64} {effects : List ClaimantEffect}
    (h : prepareFinalApproval object key nonce now s = .ok effects s') :
    Progress key s c effects s' := by
  unfold prepareFinalApproval at h
  rw [Call.run_bind (Call.run_get s), Call.guard_eq_ok, guarded_eq_ok] at h
  obtain ⟨hready, h⟩ := h
  simp only [not_or, ne_eq, not_not, Bool.not_eq_true, Option.isSome_eq_false_iff,
    Option.isNone_iff_eq_none] at hready
  obtain ⟨hgate, hempty, hphase, hkind⟩ := hready
  simp only [Call.bind_eq_ok, onApplication_eq_ok, Call.get_eq_ok, Established.onEndpoint_eq_ok,
    Call.pure_eq_ok, Call.modify_eq_ok, Call.ofExcept_eq_ok, Prod.exists, Prod.mk.injEq] at h
  obtain ⟨sequence, frame, generation, checkpoint, _, ⟨e, _, he, ⟨_, _, e₁, hprepare, _, _,
    ⟨rfl, rfl⟩, _, _, ⟨endpoint, hseal, rfl⟩, ⟨rfl, rfl, rfl, rfl⟩, rfl⟩, rfl⟩, _, _, rfl, put, _,
    ⟨hput, rfl⟩, _, _, rfl, rfl, rfl⟩ := h
  obtain ⟨hprepare, hsequence⟩ := prepareFrame_eq_ok.mp hprepare
  obtain ⟨body, hbody, -, rfl⟩ := putFrame_eq_ok.mp hput
  exact .sealed_ hphase he hgate hempty (.object (.inl hkind) (.intro hprepare hsequence hbody)) rfl
    hseal

theorem preparePayload_progress {object : Object} {nonce : Octets 12}
    {now : UInt64} {effects : List ClaimantEffect}
    (h : preparePayload object key nonce now s = .ok effects s') :
    Progress key s c effects s' := by
  unfold preparePayload at h
  rw [Call.run_bind (Call.run_get s), Call.guard_eq_ok, Call.guard_eq_ok, guarded_eq_ok] at h
  obtain ⟨hready, -, h⟩ := h
  simp only [not_or, ne_eq, not_not, Bool.not_eq_true, Option.isSome_eq_false_iff,
    Option.isNone_iff_eq_none] at hready
  obtain ⟨hgate, hempty, hphase, happroved, hkind⟩ := hready
  simp only [Call.bind_eq_ok, onApplication_eq_ok, Call.ofExcept_eq_ok, Prod.exists] at h
  obtain ⟨sequence, frame, _, ⟨e, e₁, he, hprepare, rfl⟩, put, _, ⟨hput, rfl⟩, h⟩ := h
  obtain ⟨hprepare, hsequence⟩ := prepareFrame_eq_ok.mp hprepare
  obtain ⟨body, hbody, -, rfl⟩ := putFrame_eq_ok.mp hput
  have hfinal : e.endpoint.phase = .finalApproved := by
    unfold endpointPhase at happroved
    rw [(application_eq_some.mp he).1] at happroved
    exact Option.some.inj happroved
  obtain ⟨-, -, checkpoint, endpoint, hseal, rfl, rfl⟩ :=
    (checkpointCurrent_eq_ok (s.withApplication_application e₁)).mp h
  exact .sealed_ hphase he hgate hempty
    (.object (.inr ⟨hkind, hfinal⟩) (.intro hprepare hsequence hbody)) rfl hseal

theorem receiveDurable_progress (hs : s.Stage) {input : ServerInput} {now : UInt64}
    {nonce : Octets 12} {effects : List ClaimantEffect}
    (h : receiveDurable input now key nonce s = .ok effects s') :
    Progress key s c effects s' := by
  unfold receiveDurable at h
  rw [Call.run_bind (Call.run_get s), Call.guard_eq_ok] at h
  obtain ⟨hready, h⟩ := h
  simp only [not_or, ne_eq, not_not, Bool.not_eq_true, Bool.not_eq_true', Bool.not_eq_false,
    Option.isSome_eq_false_iff, Option.isNone_iff_eq_none] at hready
  obtain ⟨hgate, hphase, hdurable⟩ := hready
  obtain ⟨e, ⟨he, -, -, -⟩, hempty⟩ := hs.running_of hphase
  obtain ⟨hendpoint, hchannel, hrelay⟩ := application_eq_some.mp he
  have hdurable' : durable e.endpoint.phase = true := by
    unfold hasDurableEndpointPhase at hdurable
    rw [hendpoint] at hdurable
    exact hdurable
  simp only [Call.bind_eq_ok, Call.orThrow_eq_ok, Call.guard_eq_ok] at h
  obtain ⟨_, _, ⟨-, rfl⟩, -, h⟩ := h
  split at h
  · exact (Call.throw_eq_ok.mp h).elim
  · simp only [Call.bind_eq_ok, Call.orThrow_eq_ok] at h
    obtain ⟨relay, _, ⟨hrelay', rfl⟩, h⟩ := h
    obtain rfl := Option.some.inj (hrelay.symm.trans hrelay')
    split_ifs at h with happlied
    · obtain ⟨rfl, rfl⟩ := Call.pure_eq_ok.mp h
      exact .silent (by intros; contradiction)
    obtain ⟨_, s₁, hmove, h⟩ := Call.bind_eq_ok.mp h
    obtain ⟨-, ⟨happlied', -⟩ | ⟨-, relay', hack, rfl⟩⟩ := (localAck_established hphase he).mp hmove
    · exact absurd happlied' happlied
    obtain ⟨-, -, checkpoint, endpoint, hseal, rfl, rfl⟩ :=
      (checkpointCurrent_eq_ok (s.withApplication_application _)).mp h
    exact .sealed_ hphase he hgate (hempty hgate) (.acknowledged hdurable' hack) rfl hseal
  · exact (Call.throw_eq_ok.mp h).elim

/-! ### Receipts -/

theorem receiveRecoveredReceipt_progress (hs : s.Stage) {input : ServerInput}
    {receipt : RecoveredReceipt} (h : receiveRecoveredReceipt input s = .ok receipt s') :
    Progress key s c [] s' := by
  unfold receiveRecoveredReceipt at h
  rw [Call.run_bind (Call.run_get s), Call.guard_eq_ok, guarded_eq_ok] at h
  obtain ⟨hready, h⟩ := h
  simp only [not_or, ne_eq, not_not, Bool.not_eq_true, Option.isSome_eq_false_iff,
    Option.isNone_iff_eq_none] at hready
  obtain ⟨hgate, hphase, hwaits, -, -⟩ := hready
  obtain ⟨e, ⟨he, -, -, -⟩, -⟩ := hs.running_of hphase
  obtain ⟨hendpoint, hchannel, hrelay⟩ := application_eq_some.mp he
  have hpayload : e.endpoint.phase = .payloadSent := by
    unfold endpointPhase at hwaits
    rw [hendpoint] at hwaits
    exact Option.some.inj hwaits
  split at h
  · exact (Call.throw_eq_ok.mp h).elim
  · simp only [Call.bind_eq_ok, Call.ofExcept_eq_ok, onRelay_eq_ok, onChannel_eq_ok,
      onEndpoint_eq_ok, Call.modify_eq_ok, Call.pure_eq_ok] at h
    obtain ⟨frame, _, ⟨-, rfl⟩, _, _, ⟨relay, relay', hrelay', haccept, rfl⟩, plaintext, _,
      ⟨channel, channel', hchannel', hopen, rfl⟩, object, _, ⟨-, rfl⟩, authority, _,
      ⟨endpoint, endpoint', hendpoint', hauthentic, rfl⟩, _, _, rfl, rfl, rfl⟩ := h
    obtain rfl := Option.some.inj (hrelay.symm.trans hrelay')
    obtain rfl := Option.some.inj (hchannel.symm.trans hchannel')
    obtain rfl := Option.some.inj (hendpoint.symm.trans hendpoint')
    obtain ⟨hlive, counter, ciphertext, -, -, -, -, rfl⟩ := SecureChannel.openFrame_eq_ok.mp hopen
    refine .receipt ⟨endpoint', _, relay'⟩ hphase he hgate hpayload rfl (.inr ⟨_, haccept⟩) rfl rfl
      rfl ?_
    exact ((e.endpoint.authenticateRecoveredReceipt_meets object).ok hauthentic).2.2
  · exact (Call.throw_eq_ok.mp h).elim

theorem authenticateRecoveredReceiptObject_progress (hs : s.Stage) {object : Object}
    {receipt : RecoveredReceipt}
    (h : authenticateRecoveredReceiptObject object s = .ok receipt s') :
    Progress key s c [] s' := by
  simp only [authenticateRecoveredReceiptObject, Call.bind_eq_ok, Call.get_eq_ok,
    Call.guard_eq_ok, onEndpoint_eq_ok, Call.modify_eq_ok, Call.pure_eq_ok] at h
  obtain ⟨_, _, ⟨rfl, rfl⟩, hready, authority, _, ⟨endpoint, endpoint', hendpoint', hauthentic, rfl⟩,
    _, _, rfl, rfl, rfl⟩ := h
  simp only [not_or, ne_eq, not_not, Bool.not_eq_true, Option.isSome_eq_false_iff,
    Option.isNone_iff_eq_none] at hready
  obtain ⟨hgate, hphase, hwaits, -⟩ := hready
  obtain ⟨e, ⟨he, -, -, -⟩, -⟩ := hs.running_of hphase
  obtain ⟨hendpoint, hchannel, hrelay⟩ := application_eq_some.mp he
  obtain rfl := Option.some.inj (hendpoint.symm.trans hendpoint')
  have hpayload : e.endpoint.phase = .payloadSent := by
    unfold endpointPhase at hwaits
    rw [hendpoint] at hwaits
    exact Option.some.inj hwaits
  have hmoved : ({ s with endpoint := some endpoint', pendingRecoveredReceipt := true } :
      ClaimantSession V) = { s.withApplication { e with endpoint := endpoint' } with
        pendingRecoveredReceipt := true } := by
    rw [← withApplication_self he]
    rfl
  exact .receipt { e with endpoint := endpoint' } hphase he hgate hpayload hmoved (.inl rfl) rfl rfl
    rfl
    ((e.endpoint.authenticateRecoveredReceipt_meets object).ok hauthentic).2.2

omit [BodyVerifier V] in
theorem commitRecoveredReceipt_progress [BodyVerifier V] {receipt : RecoveredReceipt}
    {effects : List ClaimantEffect} (h : commitRecoveredReceipt receipt s = .ok effects s') :
    Progress key s c effects s' := by
  simp only [commitRecoveredReceipt, Call.bind_eq_ok, Call.get_eq_ok, Call.guard_eq_ok,
    onEndpoint_eq_ok, Call.modify_eq_ok, Call.pure_eq_ok] at h
  obtain ⟨_, _, ⟨rfl, rfl⟩, -, acknowledgement, s₁, hack, _, _, ⟨_, _, -, -, rfl⟩, _, _, rfl, rfl,
    rfl⟩ := h
  refine .ended ?_
  cases hseq : receipt.peerSeq with
  | none =>
    simp only [hseq, Call.pure_eq_ok] at hack
    obtain ⟨rfl, rfl⟩ := hack
    intros
    contradiction
  | some peerSeq =>
    simp only [hseq, Call.bind_eq_ok, Call.ofExcept_eq_ok, Call.pure_eq_ok] at hack
    obtain ⟨ack, _, ⟨hack, rfl⟩, rfl, rfl⟩ := hack
    exact putless_singleton (putless_of_ackFrame hack)

/-! ### Every successful call -/

/-- What a successful call of a staged session did. -/
theorem call_progress (hs : s.Stage) {effects : List ClaimantEffect}
    (h : call key c s = .ok effects s') : Progress key s c effects s' := by
  cases c with
  | start =>
    simp only [call, Call.bind_eq_ok, Call.get_eq_ok, Call.ofExcept_eq_ok, Call.pure_eq_ok] at h
    obtain ⟨_, _, ⟨rfl, rfl⟩, message, _, ⟨hstart, rfl⟩, rfl, rfl⟩ := h
    unfold start at hstart
    obtain ⟨-, hstart⟩ := Calls.guard_eq_ok.mp hstart
    obtain ⟨-, rfl⟩ := relayMessage_eq_ok.mp hstart
    exact .silent (putless_singleton ⟨rfl, rfl⟩)
  | receive input now => exact receive_progress hs h
  | authoriseAuthenticatedProfile offerVerifier =>
    simp only [call, authoriseAuthenticatedProfile, Call.bind_eq_ok, Call.get_eq_ok,
      Call.guard_eq_ok, Call.set_eq_ok, Call.pure_eq_ok, not_not] at h
    obtain ⟨_, _, ⟨_, _, ⟨rfl, rfl⟩, hphase, rfl⟩, rfl, rfl⟩ := h
    exact .authorised hphase
  | prepareApplicationObject object => exact prepareApplicationObject_progress h
  | prepareFinalApproval object nonce now => exact prepareFinalApproval_progress h
  | checkpointPersisted generation =>
    simp only [call, checkpointPersisted, Call.bind_eq_ok, Call.get_eq_ok, Call.guard_eq_ok,
      Call.set_eq_ok, Call.pure_eq_ok, not_not] at h
    obtain ⟨_, _, ⟨rfl, rfl⟩, hgate, _, _, rfl, rfl, rfl⟩ := h
    exact .persisted rfl hgate
  | resumeCachedFrame =>
    simp only [call, Call.bind_eq_ok, Call.get_eq_ok, Call.ofExcept_eq_ok] at h
    obtain ⟨_, _, ⟨rfl, rfl⟩, h, rfl⟩ := h
    unfold resumeCachedFrame at h
    obtain ⟨hready, h⟩ := Calls.guard_eq_ok.mp h
    simp only [not_or, ne_eq, not_not, Bool.not_eq_true, Bool.not_eq_true', Bool.not_eq_false,
      Option.isSome_eq_false_iff, Option.isNone_iff_eq_none] at hready
    obtain ⟨hgate, hphase, hdurable⟩ := hready
    obtain ⟨e, ⟨he, -, -, -⟩, -⟩ := hs.running_of hphase
    obtain ⟨hendpoint, -, hrelay⟩ := application_eq_some.mp he
    unfold hasDurableEndpointPhase at hdurable
    rw [hendpoint] at hdurable
    rw [hrelay] at h
    dsimp only at h
    cases hcached : e.relay.cachedOutbound with
    | none =>
      rw [hcached] at h
      obtain rfl := Except.ok.inj h
      exact .silent (by intros; contradiction)
    | some frame =>
      rw [hcached] at h
      simp only [Calls.except_bind_eq_ok, Except.ok.injEq] at h
      obtain ⟨sequence, hsequence, put, hput, rfl⟩ := h
      obtain ⟨body, hbody, -, rfl⟩ := putFrame_eq_ok.mp hput
      exact .resumed rfl hphase he hgate hdurable hcached hsequence hbody
  | preparePayload object nonce now => exact preparePayload_progress h
  | receiveDurable input now nonce => exact receiveDurable_progress hs h
  | receiveRecoveredReceipt input =>
    simp only [call, Call.bind_eq_ok, Call.pure_eq_ok] at h
    obtain ⟨receipt, _, h, rfl, rfl⟩ := h
    exact receiveRecoveredReceipt_progress hs h
  | authenticateRecoveredReceiptObject object =>
    simp only [call, Call.bind_eq_ok, Call.pure_eq_ok] at h
    obtain ⟨receipt, _, h, rfl, rfl⟩ := h
    exact authenticateRecoveredReceiptObject_progress hs h
  | commitRecoveredReceipt receipt => exact commitRecoveredReceipt_progress h

end ClaimantSession
end CredentialV2
end CbclPairing
