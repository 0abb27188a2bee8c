import CbclPairing.CredentialV2.AllocatorSteps

/-! When an allocator session answers: a move whose state can be sealed is made by
the call that asks for it. -/
namespace CbclPairing
namespace CredentialV2
open Codec Codec.Cbor Calls

variable [Primitives] {V : Type}

namespace RelayState

omit [Primitives] in
/-- An acknowledgement that is still awaited was not applied before. -/
theorem awaited {r : RelayState} {sequence : UInt8} (hwait : r.awaitingAck = true)
    (hlast : checkedPred r.nextLocalSequence = some sequence) :
    r.acknowledgementAlreadyApplied sequence = false := by
  simp [acknowledgementAlreadyApplied, hlast, hwait]

end RelayState

namespace AllocatorSession

/-- The frame is not one of sequence zero after a share has been pinned. -/
def Unrepeated (s : AllocatorSession V) : ServerMessage → Prop
  | .frame peerSeq _ => ∀ b, s.state = .bootstrap b → ¬(peerSeq = 0 ∧ b.peerCpace.isSome = true)
  | _ => True

/-- An allocation names a future expiry. -/
def Timely (now : UInt64) : ServerMessage → Prop
  | .allocatedV2 _ _ expiresAt => now < expiresAt
  | _ => True

variable [BodyVerifier V]

theorem checkpointBootstrap_of_sealed {s s' : AllocatorSession V} {b : Bootstrap} {now : UInt64}
    {nonce : Octets 12} {after effects : List AllocatorEffect} (hidle : s.Idle)
    (hstate : s.state = .bootstrap b) (h : Sealed s after now nonce effects s') :
    checkpointBootstrap now nonce after s = .ok effects s' := by
  obtain ⟨generation, checkpoint, carrier, state', hseals, rfl, rfl⟩ := h
  rw [hstate] at hseals
  cases hseals with
  | bootstrap hseal =>
    simp only [checkpointBootstrap, Call.bind_eq_ok, Call.get_eq_ok, Call.orThrow_eq_ok,
      bootstrap?_eq_some, onBootstrap_eq_ok]
    exact ⟨s, s, ⟨rfl, rfl⟩, b, s, ⟨hstate, rfl⟩, checkpoint, _, ⟨b, _, hstate, hseal, rfl⟩,
      gate_eq_ok.mpr ⟨hidle.ungated, hidle.empty, rfl, rfl⟩⟩

theorem checkpointEstablished_of_sealed {s s' : AllocatorSession V} {e : Established V}
    {now : UInt64} {nonce : Octets 12} {after effects : List AllocatorEffect} (hidle : s.Idle)
    (hstate : s.state = .established e) (h : Sealed s after now nonce effects s') :
    checkpointEstablished now nonce after s = .ok effects s' := by
  obtain ⟨generation, checkpoint, carrier, state', hseals, rfl, rfl⟩ := h
  rw [hstate] at hseals
  cases hseals with
  | established hseal =>
    simp only [checkpointEstablished, Call.bind_eq_ok, Call.get_eq_ok, Call.orThrow_eq_ok,
      established?_eq_some, onEstablished_eq_ok, Established.onEndpoint_eq_ok]
    exact ⟨s, s, ⟨rfl, rfl⟩, e, s, ⟨hstate, rfl⟩, checkpoint, _,
      ⟨e, _, hstate, ⟨_, hseal, rfl⟩, rfl⟩, gate_eq_ok.mpr ⟨hidle.ungated, hidle.empty, rfl, rfl⟩⟩

theorem establish_of_sealed {s s' : AllocatorSession V} {b : Bootstrap} {frame : Frame}
    {channel : SecureChannel} {relay : RelayState} {v : V} {now : UInt64} {nonce : Octets 12}
    {ack : Option AllocatorEffect} {effects : List AllocatorEffect} (hidle : s.Idle)
    (hstate : s.state = .bootstrap b) (hframe : b.peerFinished = some frame)
    (hconfirm : b.confirm frame = .ok (channel, relay)) (hawait : relay.awaitingAck = false)
    (hverifier : s.bodyVerifier = some v)
    (h : Sealed { s with
          bodyVerifier := none
          state := .established ⟨{ Endpoint.new .allocator b.carrier v with
            checkpointGeneration := b.checkpointGeneration
            checkpointNonce := b.checkpointNonce }, channel, relay⟩ }
        (ack.toList ++ [.established channel.transcriptHash]) now nonce effects s') :
    establish now nonce ack s = .ok effects s' := by
  obtain ⟨generation, checkpoint, carrier, state', hseals, rfl, rfl⟩ := h
  cases hseals with
  | @established _ endpoint _ hseal =>
    have hseal : Endpoint.sealCheckpoint channel relay s.wrappingKey
        (saturatingSucc b.checkpointGeneration) (some b.carrier.relayExpiresAt) nonce now
        { Endpoint.new .allocator b.carrier v with
          checkpointGeneration := b.checkpointGeneration
          checkpointNonce := b.checkpointNonce } = .ok checkpoint endpoint := hseal
    simp only [establish, Call.bind_eq_ok, Call.get_eq_ok, Call.set_eq_ok, Call.orThrow_eq_ok,
      Call.ofExcept_eq_ok, bootstrap?_eq_some, Call.guard_eq_ok, Prod.exists, Call.modify_eq_ok]
    refine ⟨s, s, ⟨rfl, rfl⟩, ⟨⟩, _, rfl, b, _, ⟨hstate, rfl⟩, frame, _, ⟨hframe, rfl⟩, channel,
      relay, _, ⟨hconfirm, rfl⟩, by simpa using hawait, v, _, ⟨hverifier, rfl⟩, ⟨⟩, _, rfl, ?_⟩
    rw [hseal]
    simp only [Call.bind_eq_ok, Call.modify_eq_ok]
    exact ⟨⟨⟩, _, rfl, gate_eq_ok.mpr ⟨hidle.ungated, hidle.empty, rfl, rfl⟩⟩

theorem peerFrame_of_transition {s s₁ s' : AllocatorSession V} {peerSeq : UInt8} {body : Bytes}
    {now : UInt64} {nonce : Octets 12} {after effects : List AllocatorEffect} (hidle : s.Idle)
    (hfirst : Unrepeated s (.frame peerSeq body))
    (htransition : Transition s (.message (.frame peerSeq body)) s₁ after)
    (hsealed : Sealed s₁ after now nonce effects s') :
    peerFrame peerSeq body now nonce s = .ok effects s' := by
  simp only [peerFrame, Call.bind_eq_ok, Call.get_eq_ok, Call.ofExcept_eq_ok]
  cases htransition with
  | @shared b _ _ _ _ _ _ _ _ _ hstate hphase hscalar hframe hshare hack hput =>
    refine ⟨_, s, ⟨hframe, rfl⟩, s, s, ⟨rfl, rfl⟩, ?_⟩
    rw [hstate]
    dsimp only
    rw [if_neg (hfirst b hstate), hphase]
    simp only [Call.bind_eq_ok, Call.orThrow_eq_ok, Call.modify_eq_ok, onBootstrap_eq_ok,
      Call.ofExcept_eq_ok, Prod.exists]
    exact ⟨_, s, ⟨hscalar, rfl⟩, ⟨⟩, _, rfl, _, _, _, ⟨b, _, hstate, hshare, rfl⟩, _, _,
      ⟨hack, rfl⟩, _, _, ⟨hput, rfl⟩,
      checkpointBootstrap_of_sealed ⟨hidle.ungated, hidle.empty⟩ rfl hsealed⟩
  | @peerFinished b _ _ _ _ _ hstate hphase hframe hpeer hack =>
    refine ⟨_, s, ⟨hframe, rfl⟩, s, s, ⟨rfl, rfl⟩, ?_⟩
    rw [hstate]
    dsimp only
    rw [if_neg (hfirst b hstate), hphase]
    simp only [Call.bind_eq_ok, onBootstrap_eq_ok, Call.ofExcept_eq_ok]
    refine ⟨true, _, ⟨b, _, hstate, hpeer, rfl⟩, _, _, ⟨hack, rfl⟩, ?_⟩
    rw [if_pos rfl]
    exact checkpointBootstrap_of_sealed ⟨hidle.ungated, hidle.empty⟩ rfl hsealed
  | @established _ b b' _ _ _ _ _ hstate hphase harrived hfinished hconfirm hawait hverifier =>
    obtain ⟨-, _, hcause, -⟩ | ⟨_, _, frame, effect, hcause, hframe, rfl, hack, hpeer⟩ := harrived
    · cases hcause
    cases hcause
    refine ⟨_, s, ⟨hframe, rfl⟩, s, s, ⟨rfl, rfl⟩, ?_⟩
    rw [hstate]
    dsimp only
    rw [if_neg (hfirst b hstate), hphase]
    simp only [Call.bind_eq_ok, onBootstrap_eq_ok, Call.ofExcept_eq_ok]
    refine ⟨false, _, ⟨b, _, hstate, hpeer, rfl⟩, _, _, ⟨hack, rfl⟩, ?_⟩
    rw [if_neg (by decide)]
    exact establish_of_sealed ⟨hidle.ungated, hidle.empty⟩ rfl hfinished hconfirm hawait hverifier
      hsealed
  | @received e _ _ _ _ _ _ hstate hframe hopen hack =>
    refine ⟨_, s, ⟨hframe, rfl⟩, s, s, ⟨rfl, rfl⟩, ?_⟩
    rw [hstate]
    simp only [peerApplicationFrame, Call.bind_eq_ok, onEstablished_eq_ok, Call.ofExcept_eq_ok]
    exact ⟨_, _, ⟨e, _, hstate, hopen, rfl⟩, _, _, ⟨hack, rfl⟩,
      checkpointEstablished_of_sealed ⟨hidle.ungated, hidle.empty⟩ rfl hsealed⟩

theorem localAcknowledged_of_transition {s s₁ s' : AllocatorSession V} {sequence : UInt8}
    {now : UInt64} {nonce : Octets 12} {after effects : List AllocatorEffect} (hidle : s.Idle)
    (htransition : Transition s (.message (.acknowledged sequence)) s₁ after)
    (hsealed : Sealed s₁ after now nonce effects s') :
    localAcknowledged sequence now nonce s = .ok effects s' := by
  simp only [localAcknowledged, Call.bind_eq_ok, Call.get_eq_ok]
  refine ⟨s, s, ⟨rfl, rfl⟩, ?_⟩
  cases htransition with
  | @shareAcknowledged b _ _ _ _ _ hstate hphase hnext hput =>
    obtain ⟨_, _, _, hrelay, -⟩ := finishedNext_eq_ok.mp hnext
    obtain ⟨hlast, hwait, -⟩ := RelayState.acknowledgeBootstrapFrame_eq_ok.mp hrelay
    rw [hstate]
    dsimp only
    rw [if_neg (by simp [RelayState.awaited hwait hlast]), hphase]
    simp only [Call.bind_eq_ok, onBootstrap_eq_ok, Call.ofExcept_eq_ok, Prod.exists]
    exact ⟨_, _, _, ⟨b, _, hstate, hnext, rfl⟩, _, _, ⟨hput, rfl⟩,
      checkpointBootstrap_of_sealed ⟨hidle.ungated, hidle.empty⟩ rfl hsealed⟩
  | @finishedAcknowledged b _ _ hstate hphase hack =>
    obtain ⟨_, hrelay, -⟩ := finishedAcknowledged_eq_ok.mp hack
    obtain ⟨hlast, hwait, -⟩ := RelayState.acknowledgeBootstrapFrame_eq_ok.mp hrelay
    rw [hstate]
    dsimp only
    rw [if_neg (by simp [RelayState.awaited hwait hlast]), hphase]
    simp only [Call.bind_eq_ok, onBootstrap_eq_ok]
    refine ⟨false, _, ⟨b, _, hstate, hack, rfl⟩, ?_⟩
    rw [if_neg (by decide)]
    exact checkpointBootstrap_of_sealed ⟨hidle.ungated, hidle.empty⟩ rfl hsealed
  | @established _ b b' _ _ _ _ _ hstate hphase harrived hfinished hconfirm hawait hverifier =>
    obtain ⟨rfl, _, hcause, hack⟩ | ⟨_, _, _, _, hcause, -⟩ := harrived
    swap
    · cases hcause
    cases hcause
    obtain ⟨_, hrelay, -⟩ := finishedAcknowledged_eq_ok.mp hack
    obtain ⟨hlast, hwait, -⟩ := RelayState.acknowledgeBootstrapFrame_eq_ok.mp hrelay
    rw [hstate]
    dsimp only
    rw [if_neg (by simp [RelayState.awaited hwait hlast]), hphase]
    simp only [Call.bind_eq_ok, onBootstrap_eq_ok]
    refine ⟨true, _, ⟨b, _, hstate, hack, rfl⟩, ?_⟩
    rw [if_pos rfl]
    exact establish_of_sealed ⟨hidle.ungated, hidle.empty⟩ rfl hfinished hconfirm hawait hverifier
      hsealed
  | @acknowledged e _ _ hstate hack =>
    obtain ⟨hcached, -⟩ := RelayState.acknowledgeApplicationFrame_eq_ok.mp hack
    obtain ⟨hwait, -, hlast⟩ := RelayState.cachedApplicationSequence_eq_ok.mp hcached
    rw [hstate]
    dsimp only
    rw [if_neg (by simp [RelayState.awaited hwait hlast])]
    simp only [applicationAcknowledged, Call.bind_eq_ok, onEstablished_eq_ok,
      Established.onRelay_eq_ok]
    exact ⟨⟨⟩, _, ⟨e, _, hstate, ⟨_, hack, rfl⟩, rfl⟩,
      checkpointEstablished_of_sealed ⟨hidle.ungated, hidle.empty⟩ rfl hsealed⟩

/-- A relay message that allows a sealable move is answered with its checkpoint. -/
theorem receive_of_transition {s s₁ s' : AllocatorSession V}
    {message : {m : ServerMessage // m.recognised = true}} {now : UInt64} {nonce : Octets 12}
    {after effects : List AllocatorEffect} (hidle : s.Idle) (hfirst : Unrepeated s message.val)
    (htimely : Timely now message.val) (htransition : Transition s (.message message.val) s₁ after)
    (hsealed : Sealed s₁ after now nonce effects s') :
    receive (.ok message) now nonce s = .ok effects s' := by
  obtain ⟨message, hmessage⟩ := message
  simp only [receive, Call.bind_eq_ok, Call.get_eq_ok, Call.guard_eq_ok, guarded_eq_ok]
  refine ⟨s, s, ⟨rfl, rfl⟩, by simp [hidle.ungated], ?_⟩
  cases message with
  | frame peerSeq body => exact peerFrame_of_transition hidle hfirst htransition hsealed
  | acknowledged sequence => exact localAcknowledged_of_transition hidle htransition hsealed
  | allocatedV2 mailboxId membershipToken expiresAt =>
    cases htransition with
    | @allocation carrier presence b _ _ hstate hpresence hinput hnew =>
      unfold applyServer
      simp only [Call.bind_eq_ok, Call.get_eq_ok]
      refine ⟨s, s, ⟨rfl, rfl⟩, ?_⟩
      rw [hstate]
      simp only [allocated, Call.bind_eq_ok, Call.get_eq_ok, Call.guard_eq_ok,
        Call.ofExcept_eq_ok, Call.orThrow_eq_ok, Call.set_eq_ok]
      have hcarrier := Carrier.new_toCarrierInput carrier
      rw [hinput] at hcarrier
      exact ⟨s, s, ⟨rfl, rfl⟩, by simpa [Timely, UInt64.not_le] using htimely, carrier, s,
        ⟨hcarrier, rfl⟩, presence, s, ⟨hpresence, rfl⟩, b, s, ⟨hnew, rfl⟩, ⟨⟩, _, rfl,
        checkpointBootstrap_of_sealed ⟨hidle.ungated, hidle.empty⟩ rfl hsealed⟩
    | established _ _ harrived =>
      rcases harrived with ⟨-, _, hcause, -⟩ | ⟨_, _, _, _, hcause, -⟩ <;> cases hcause
  | _ =>
    exfalso
    cases htransition with
    | established _ _ harrived =>
      rcases harrived with ⟨-, _, hcause, -⟩ | ⟨_, _, _, _, hcause, -⟩ <;> cases hcause

theorem prepareApplicationObject_of_transition {s s₁ s' : AllocatorSession V} {object : Object}
    {now : UInt64} {nonce : Octets 12} {after effects : List AllocatorEffect} (hidle : s.Idle)
    (htransition : Transition s (.object object) s₁ after)
    (hsealed : Sealed s₁ after now nonce effects s') :
    prepareApplicationObject object now nonce s = .ok effects s' := by
  simp only [prepareApplicationObject, Call.bind_eq_ok, Call.get_eq_ok, Call.guard_eq_ok,
    guarded_eq_ok]
  refine ⟨s, s, ⟨rfl, rfl⟩, by simp [hidle.ungated], ?_⟩
  cases htransition with
  | established _ _ harrived =>
    rcases harrived with ⟨-, _, hcause, -⟩ | ⟨_, _, _, _, hcause, -⟩ <;> cases hcause
  | @sent e e' _ frame sequence put hstate hprepare hsequence hput =>
    simp only [prepareApplicationObjectInner, Call.bind_eq_ok, onEstablished_eq_ok,
      Call.get_eq_ok, Call.ofExcept_eq_ok, Call.pure_eq_ok, Prod.exists, Prod.mk.injEq]
    exact ⟨sequence, frame, _, ⟨e, e', hstate, ⟨frame, e', hprepare, e', e', ⟨rfl, rfl⟩, sequence,
      e', ⟨hsequence, rfl⟩, ⟨rfl, rfl⟩, rfl⟩, rfl⟩, put, _, ⟨hput, rfl⟩,
      checkpointEstablished_of_sealed ⟨hidle.ungated, hidle.empty⟩ rfl hsealed⟩

end AllocatorSession

end CredentialV2
end CbclPairing
