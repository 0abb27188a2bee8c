import CbclPairing.CredentialV2.AllocatorProgress
import CbclPairing.CredentialV2.Capacity

/-! Which objects the allocator session lets through: the reducer accepts them, and
the state they lead to can be sealed. -/
namespace CbclPairing
namespace CredentialV2
open Codec Codec.Cbor Calls

variable [Primitives] {V : Type} [BodyVerifier V]

omit [Primitives] [BodyVerifier V] in
theorem validateCheckpointPhase_allocator {phase : Phase} {receiptReleased : Bool}
    {expiry now : UInt64} (hnow : now < expiry) :
    validateCheckpointPhase .allocator phase receiptReleased (some expiry) expiry now = .ok () ↔
      (phase = .terminal → receiptReleased = true) := by
  unfold validateCheckpointPhase
  by_cases hrefused : phase = .terminal ∧ receiptReleased = false
  · simp [hrefused]
  · rw [if_neg (by simpa using hrefused)]
    dsimp only
    rw [validateExpiry_eq_ok]
    simp only [not_and, Bool.not_eq_false] at hrefused
    exact ⟨fun _ => hrefused, fun _ => ⟨rfl, hnow⟩⟩

omit [Primitives] in
/-- The kinds that end a ceremony without a Receipt. -/
def Kind.closes : Kind → Bool
  | .intentDecline | .finalDecline | .refusal => true
  | _ => false

omit [BodyVerifier V] in
theorem consistentProjection_open {phase : Phase} {intentDigest : Option (Octets 32)}
    {last : LastObject} (h : consistentProjection phase intentDigest (some last) = true) :
    last.kind.closes = false := by
  cases hkind : last.kind <;> simp only [Kind.closes] <;>
    cases phase <;> cases intentDigest <;> simp [consistentProjection, hkind] at h

namespace Endpoint

omit [BodyVerifier V] in
/-- After an accepted object, an allocator endpoint may be sealed unless the object
closed the ceremony. -/
theorem Accepts.checkpointable_iff {e e' : Endpoint V} {object : Object} {sender : Side}
    (h : Accepts object sender e e') (hside : e.side = .allocator) :
    (e'.phase = .terminal → e'.receiptReleased = true) ↔ object.kind.closes = false := by
  cases h with
  | accountSelect hkind => simp [accept, hkind, Kind.closes]
  | sentOffer hkind => simp [accept, hkind, Kind.closes]
  | receivedOffer hkind => simp [accept, hkind, Kind.closes]
  | successor v next hsender hsucceeds =>
    have hstep := hsucceeds.step
    have hopen := hsucceeds.open_
    simp only [accept, receiptReleased, hside, Option.any_some]
    cases hphase : e.phase <;> cases hkind : object.kind <;>
      simp_all [nextPhase, validSender, Kind.closes] <;> subst hstep <;> simp

omit [BodyVerifier V] in
/-- What may be sealed never ended in a closing object. -/
theorem Sound.last_open {e : Endpoint V} (h : e.Sound)
    (hphase : e.phase = .terminal → e.receiptReleased = true) :
    ∀ last ∈ e.last, last.kind.closes = false := by
  rintro last hlast
  have hconsistent := h.consistent hphase
  rw [hlast] at hconsistent
  exact consistentProjection_open hconsistent

end Endpoint

namespace Established

/-- The next checkpoint of this state has enough space. -/
def Room (e : Established V) (nonce : Octets 12) : Prop :=
  ∃ plaintext, encodeInner e (saturatingSucc e.endpoint.checkpointGeneration) nonce =
    .ok plaintext ∧ plaintext.length ≤ maxInner

/-- In a phase that may be sealed, only the nonce and the space decide. -/
theorem sealCheckpoint_room (wrappingKey : Octets 32) {e : Established V} {now : UInt64}
    {expiry : Option UInt64} {nonce : Octets 12} (hcoherent : e.Coherent)
    (hphase : validateCheckpointPhase e.endpoint.side e.endpoint.phase e.endpoint.receiptReleased
      expiry e.endpoint.carrier.relayExpiresAt now = .ok ()) :
    (∃ checkpoint endpoint, Endpoint.sealCheckpoint e.channel e.relay wrappingKey
        (saturatingSucc e.endpoint.checkpointGeneration) expiry nonce now e.endpoint =
        .ok checkpoint endpoint) ↔ e.endpoint.checkpointNonce ≠ some nonce ∧ e.Room nonce := by
  constructor
  · rintro ⟨checkpoint, endpoint, hseal⟩
    obtain ⟨-, -, ⟨-, -, hnonce⟩, ⟨plaintext, hencode, hplain⟩, -⟩ :=
      Endpoint.sealCheckpoint_eq_ok.mp hseal
    obtain ⟨hbound, -⟩ := Calls.guard_eq_ok.mp hplain
    exact ⟨hnonce, plaintext, hencode, not_lt.mp (not_or.mp hbound).2⟩
  · rintro ⟨hnonce, plaintext, hencode, hlength⟩
    obtain ⟨checkpoint, hplain⟩ := sealCheckpointPlaintext_ok e.endpoint.side e.endpoint.carrier
      wrappingKey (saturatingSucc e.endpoint.checkpointGeneration) expiry nonce
      (encodeInner_ne_nil hencode) hlength
    exact ⟨checkpoint, _, Endpoint.sealCheckpoint_eq_ok.mpr ⟨hcoherent.side_eq, hphase,
      ⟨saturatingSucc_ne_zero _, rfl, hnonce⟩, ⟨plaintext, hencode, hplain⟩, rfl⟩⟩

/-- With space, a fresh nonce and a running clock, only the phase decides. -/
theorem sealCheckpoint_iff (wrappingKey : Octets 32) {e : Established V} {now : UInt64}
    {nonce : Octets 12} (hside : e.endpoint.side = .allocator) (hcoherent : e.Coherent)
    (hnow : now < e.endpoint.carrier.relayExpiresAt)
    (hnonce : e.endpoint.checkpointNonce ≠ some nonce) (hroom : e.Room nonce) :
    (∃ checkpoint endpoint, Endpoint.sealCheckpoint e.channel e.relay wrappingKey
        (saturatingSucc e.endpoint.checkpointGeneration) (some e.endpoint.carrier.relayExpiresAt)
        nonce now e.endpoint = .ok checkpoint endpoint) ↔
      (e.endpoint.phase = .terminal → e.endpoint.receiptReleased = true) := by
  rw [← validateCheckpointPhase_allocator hnow]
  constructor
  · rintro ⟨checkpoint, endpoint, hseal⟩
    obtain ⟨-, hphase, -⟩ := Endpoint.sealCheckpoint_eq_ok.mp hseal
    rwa [hside] at hphase
  · intro hphase
    rw [← hside] at hphase
    exact (sealCheckpoint_room wrappingKey hcoherent hphase).mpr ⟨hnonce, hroom⟩

/-- An object the reducer advances on is sealed, cached and can be put. -/
theorem prepareOutbound_of_send {e : Established V} {object : Object} {endpoint : Endpoint V}
    (hbounded : e.Bounded) (hcoherent : e.Coherent) (hcached : e.relay.cachedOutbound = none)
    (hsend : Endpoint.send object e.endpoint = .ok .advanced endpoint) :
    ∃ frame channel relay put,
      SecureChannel.sealFrame object.bytes e.channel = .ok frame channel ∧
      prepareOutbound object e = .ok frame ⟨endpoint, channel, relay⟩ ∧
      relay.cachedApplicationSequence = .ok e.relay.nextLocalSequence ∧
      putMessage e.relay.nextLocalSequence frame = .ok put := by
  obtain ⟨counter, hcounter, -⟩ := hbounded.sendCounter
  have hlen := object.bytes_length_le
  have hpos := object.bytes_length
  have hcap : capacity object.kind ≤ 64512 := by cases object.kind <;> decide
  have hcanSeal : e.channel.canSeal object.bytes = .ok () := by
    refine SecureChannel.canSeal_eq_ok.mpr ⟨hcoherent.live, ?_, ?_, by simp [hcounter]⟩
    · intro hnil
      rw [hnil, List.length_nil] at hpos
      omega
    · unfold maxPlaintext
      omega
  have hseal := SecureChannel.sealFrame_eq_ok.mpr ⟨hcanSeal, counter, hcounter, rfl, rfl⟩
  have hlocal := hbounded.localSequence
  have hown : ownObjects e.endpoint.phase ≤ 3 := by cases e.endpoint.phase <;> decide
  obtain ⟨next, hnext⟩ : ∃ next, checkedSucc e.relay.nextLocalSequence = some next := by
    refine ⟨e.relay.nextLocalSequence + 1, checkedSucc_eq_some.mpr ?_⟩
    rw [UInt8.toNat_add]
    simp only [UInt8.reduceToNat]
    omega
  have hawait : e.relay.awaitingAck = false := by
    rw [hcoherent.awaiting, hcached]
    rfl
  have hcache := RelayState.cacheApplicationFrame_eq_ok.mpr ⟨hawait,
    (rfl : (Frame.sealed (sendDirection e.channel.localSide) counter
      (e.channel.ciphertext counter object.bytes)).isSealed = true), next, hnext, rfl⟩
  obtain ⟨hencode, hbody, hle⟩ := Frame.OfObject.encoded (f := .sealed
    (sendDirection e.channel.localSide) counter (e.channel.ciphertext counter object.bytes))
    ⟨_, _, _, rfl, ciphertext_length e.channel counter object⟩
  refine ⟨_, _, _, _, hseal, prepareOutbound_eq_ok.mpr ⟨hcoherent.side_eq, .inr ⟨hcached, hcanSeal,
    endpoint, _, _, hsend, hseal, hcache, rfl⟩⟩, ?_, putMessage_eq_ok.mpr ⟨_, hencode, ?_, rfl⟩⟩
  · refine RelayState.cachedApplicationSequence_eq_ok.mpr ⟨rfl, rfl, ?_⟩
    exact checkedPred_eq_some.mpr (checkedSucc_eq_some.mp hnext)
  · simp only [ClientMessage.recognised, admissibleBody, Bool.and_eq_true, decide_eq_true_eq]
    omega

end Established

namespace AllocatorSession
open AllocatorState

/-- A checkpoint comes back alone, and confirming it releases exactly these
effects. -/
def Exposes (result : EStateM.Result Error (AllocatorSession V) (List AllocatorEffect))
    (after : List AllocatorEffect) : Prop :=
  ∃ generation checkpoint carrier s' s'',
    result = .ok [.checkpoint generation checkpoint carrier] s' ∧
    checkpointPersisted generation s' = .ok after s''

theorem Sealed.exposes {s₁ s' : AllocatorSession V} {after effects : List AllocatorEffect}
    {now : UInt64} {nonce : Octets 12} (h : Sealed s₁ after now nonce effects s') :
    Exposes (.ok effects s') after := by
  obtain ⟨generation, checkpoint, carrier, state', -, rfl, rfl⟩ := h
  exact ⟨generation, checkpoint, carrier, _, _, rfl,
    checkpointPersisted_eq_ok.mpr ⟨rfl, rfl, rfl⟩⟩

/-- An exposed call made a sealed move. -/
theorem Outcome.sealed_ {s s' : AllocatorSession V} {cause : Cause} {now generation : UInt64}
    {nonce : Octets 12} {checkpoint carrier : Bytes}
    (h : Outcome s cause now nonce [.checkpoint generation checkpoint carrier] s') :
    ∃ s₁ after state', Transition s cause s₁ after ∧
      Seals s₁.wrappingKey now nonce s₁.state generation checkpoint carrier state' := by
  cases h with
  | direct hdirect =>
    have hnone := hdirect.no_checkpoint
    simp [AllocatorEffect.generation?] at hnone
  | moved htransition hsealed =>
    obtain ⟨_, _, _, state', hseals, heffects, -⟩ := hsealed
    simp only [List.cons.injEq, AllocatorEffect.checkpoint.injEq, and_true] at heffects
    obtain ⟨rfl, rfl, rfl⟩ := heffects
    exact ⟨_, _, state', htransition, hseals⟩

theorem Sealed.of_established (after : List AllocatorEffect) {s₁ : AllocatorSession V}
    {e : Established V} {now : UInt64} {nonce : Octets 12} {checkpoint : Bytes}
    {endpoint : Endpoint V} (hstate : s₁.state = .established e)
    (h : Endpoint.sealCheckpoint e.channel e.relay s₁.wrappingKey
      (saturatingSucc e.endpoint.checkpointGeneration) (some e.endpoint.carrier.relayExpiresAt)
      nonce now e.endpoint = .ok checkpoint endpoint) :
    ∃ effects s', Sealed s₁ after now nonce effects s' :=
  ⟨_, _, _, checkpoint, _, _, by rw [hstate]; exact .established h, rfl, rfl⟩

theorem Transition.sent_unique {s s₁ : AllocatorSession V} {e e₁ : Established V} {object : Object}
    {frame : Frame} {after : List AllocatorEffect} (hstate : s.state = .established e)
    (hprepare : Established.prepareOutbound object e = .ok frame e₁)
    (h : Transition s (.object object) s₁ after) : s₁ = { s with state := .established e₁ } := by
  cases h with
  | established _ _ harrived =>
    rcases harrived with ⟨-, _, hcause, -⟩ | ⟨_, _, _, _, hcause, -⟩ <;> cases hcause
  | sent hstate' hprepare' =>
    obtain rfl := AllocatorState.established.inj (hstate.symm.trans hstate')
    rw [hprepare] at hprepare'
    cases hprepare'
    rfl

theorem Transition.received_unique {s s₁ : AllocatorSession V} {e e₁ : Established V}
    {object : Object} {body : Bytes} {frame : Frame} {peerSeq : UInt8}
    {after : List AllocatorEffect} (hstate : s.state = .established e)
    (hframe : decodeFrame body = .ok frame) (hopen : openPeerObject peerSeq frame e = .ok object e₁)
    (h : Transition s (.message (.frame peerSeq body)) s₁ after) :
    s₁ = { s with state := .established e₁ } := by
  cases h with
  | shared hstate' => cases hstate.symm.trans hstate'
  | peerFinished hstate' => cases hstate.symm.trans hstate'
  | established hstate' => cases hstate.symm.trans hstate'
  | received hstate' hframe' hopen' =>
    obtain rfl := AllocatorState.established.inj (hstate.symm.trans hstate')
    obtain rfl := Except.ok.inj (hframe.symm.trans hframe')
    rw [hopen] at hopen'
    cases hopen'
    rfl

/-- A call that can only make one move comes out exactly when the moved state may
be sealed. -/
theorem exposes_iff {s s₁ : AllocatorSession V} {e₁ : Established V} {now : UInt64}
    {nonce : Octets 12} (cause : Cause) (after : List AllocatorEffect)
    (result : EStateM.Result Error (AllocatorSession V) (List AllocatorEffect))
    (hstate : s₁.state = .established e₁) (hside : e₁.endpoint.side = .allocator)
    (hcoherent : e₁.Coherent) (hnow : now < e₁.endpoint.carrier.relayExpiresAt)
    (hnonce : e₁.endpoint.checkpointNonce ≠ some nonce) (hroom : e₁.Room nonce)
    (hanswers : ∀ effects s', Sealed s₁ after now nonce effects s' → result = .ok effects s')
    (houtcome : ∀ effects s', result = .ok effects s' → Outcome s cause now nonce effects s')
    (honly : ∀ s₁' after', Transition s cause s₁' after' → s₁' = s₁) :
    Exposes result after ↔
      (e₁.endpoint.phase = .terminal → e₁.endpoint.receiptReleased = true) := by
  rw [← Established.sealCheckpoint_iff s₁.wrappingKey hside hcoherent hnow hnonce hroom]
  constructor
  · rintro ⟨generation, checkpoint, carrier, s', -, hresult, -⟩
    obtain ⟨s₁', after', state', htransition, hseals⟩ := (houtcome _ _ hresult).sealed_
    obtain rfl := honly s₁' after' htransition
    rw [hstate] at hseals
    cases hseals with
    | established hseal => exact ⟨_, _, hseal⟩
  · rintro ⟨checkpoint, endpoint, hseal⟩
    obtain ⟨effects, s', hsealed⟩ := Sealed.of_established after hstate hseal
    rw [hanswers effects s' hsealed]
    exact hsealed.exposes

/-- For every established session a run reaches, with nothing held back, a fresh
nonce, a running clock and enough space: what the reducer accepts comes out of the
session exactly when it does not close the ceremony. -/
theorem exposes_unless_closing {input : AllocatorInput} {v : V} {s₀ s : AllocatorSession V}
    (hnew : AllocatorSession.new input v = .ok s₀) (source : Recovery.Source)
    (acts : List (Recovery.Act AllocatorCall (AllocatorReturn V)))
    (hlive : (Runs.after ((machine input.host).step source) (.start s₀) acts).live = some s)
    {e : Established V} (hstate : s.state = .established e) (hgate : s.persistenceGate = none)
    {now : UInt64} {nonce : Octets 12} (hnow : now < e.endpoint.carrier.relayExpiresAt)
    (hnonce : e.endpoint.checkpointNonce ≠ some nonce) :
    (∀ object endpoint, Endpoint.send object e.endpoint = .ok .advanced endpoint →
      e.relay.cachedOutbound = none →
      (∀ frame e₁, Established.prepareOutbound object e = .ok frame e₁ → e₁.Room nonce) →
      ((∃ frame channel put, SecureChannel.sealFrame object.bytes e.channel = .ok frame channel ∧
          putMessage e.relay.nextLocalSequence frame = .ok put ∧
          Exposes (prepareApplicationObject object now nonce s) [.send put]) ↔
        object.kind.closes = false)) ∧
    (∀ body frame plaintext channel object advance endpoint
      (hmessage : (ServerMessage.frame e.relay.nextPeerSequence body).recognised = true),
      decodeFrame body = .ok frame → SecureChannel.openFrame frame e.channel = .ok plaintext channel →
      decodeObject plaintext = .ok object →
      Endpoint.receive object e.endpoint = .ok advance endpoint →
      (∀ e₁, openPeerObject e.relay.nextPeerSequence frame e = .ok object e₁ → e₁.Room nonce) →
      (Exposes (receive (.ok ⟨_, hmessage⟩) now nonce s)
          [.send (.ack e.relay.nextPeerSequence), .receivedObject object] ↔
        object.kind.closes = false)) := by
  have hkept := ((machine_keeps (settled_invariant input.host)).run_free (new_kept trivial hnew)
    source acts).live s hlive
  have hrunning := hkept.running (by simp [hstate])
  have hidle : s.Idle := ⟨hgate, hrunning.idle hgate⟩
  obtain ⟨hbounded, hreceipt⟩ : e.Bounded ∧ _ := by
    have hsettled := hrunning.invariant
    rwa [hstate] at hsettled
  obtain ⟨hcoherent, hside, -⟩ : e.Coherent ∧ _ := by
    have hcoherent := hrunning.coherent
    rwa [hstate] at hcoherent
  constructor
  · rintro object endpoint hsend hcached hroom
    obtain ⟨frame, channel, relay, put, hseal, hprepare, hsequence, hput⟩ :=
      Established.prepareOutbound_of_send hbounded hcoherent hcached hsend
    have haccepts := Endpoint.send_advanced hsend
    obtain ⟨-, hside', hcarrier', -, hnonce'⟩ := haccepts.kept
    have hput' : putFrame e.relay.nextLocalSequence frame = .ok (.send put) := by
      simp [putFrame, hput]
    have hsent := Transition.sent hstate hprepare hsequence hput'
    have hexposes := exposes_iff (s := s) (.object object) [.send put]
      (prepareApplicationObject object now nonce s) rfl (hside'.trans hside)
      (hcoherent.prepared hprepare) (by rw [hcarrier']; exact hnow) (by rw [hnonce']; exact hnonce)
      (hroom _ _ hprepare)
      (fun _ _ hsealed => prepareApplicationObject_of_transition hidle hsent hsealed)
      (fun _ _ hresult => (prepareApplicationObject_outcome hresult).2)
      (fun _ _ htransition => htransition.sent_unique hstate hprepare)
    rw [← haccepts.checkpointable_iff hside]
    refine ⟨?_, fun hphase => ⟨frame, channel, put, hseal, hput, hexposes.mpr hphase⟩⟩
    rintro ⟨_, _, _, hseal', hput'', h⟩
    cases hseal.symm.trans hseal'
    cases hput.symm.trans hput''
    exact hexposes.mp h
  · rintro body frame plaintext channel object advance endpoint hmessage hframe hopen hobject
      hreceive hroom
    have hsmall : e.relay.nextPeerSequence.toNat ≤ 15 := by
      simp only [ServerMessage.recognised, Bool.and_eq_true, decide_eq_true_eq] at hmessage
      exact hmessage.1
    obtain ⟨next, hnext⟩ : ∃ next, checkedSucc e.relay.nextPeerSequence = some next := by
      refine ⟨e.relay.nextPeerSequence + 1, checkedSucc_eq_some.mpr ?_⟩
      rw [UInt8.toNat_add]
      simp only [UInt8.reduceToNat]
      omega
    have hpeer := openPeerObject_eq_ok.mpr ⟨_, plaintext, channel, advance, endpoint,
      RelayState.acceptPeerSequence_eq_ok.mpr ⟨rfl, next, hnext, rfl⟩, hopen, hobject, hreceive, rfl⟩
    have hack : ackFrame e.relay.nextPeerSequence = .ok (.send (.ack e.relay.nextPeerSequence)) :=
      ackFrame_eq_ok.mpr ⟨by simpa [ClientMessage.recognised] using hsmall, rfl⟩
    have hreceived := Transition.received hstate hframe hpeer hack
    have hfirst : Unrepeated s (.frame e.relay.nextPeerSequence body) := fun b hb => by
      cases hstate.symm.trans hb
    obtain ⟨⟨hside', hcarrier', hnonce'⟩, hcloses⟩ : (endpoint.side = e.endpoint.side ∧
        endpoint.carrier = e.endpoint.carrier ∧
        endpoint.checkpointNonce = e.endpoint.checkpointNonce) ∧
        ((endpoint.phase = .terminal → endpoint.receiptReleased = true) ↔
          object.kind.closes = false) := by
      rcases Endpoint.receive_ok hreceive with ⟨hagain, rfl⟩ | haccepts
      · refine ⟨⟨rfl, rfl, rfl⟩, fun _ => ?_, fun _ => hreceipt⟩
        simp only [Endpoint.exactRetransmission, Option.any_eq_true, Bool.and_eq_true,
          beq_iff_eq] at hagain
        obtain ⟨last, hlast, ⟨⟨⟨-, hkind⟩, -⟩, -⟩, -⟩ := hagain
        rw [← hkind]
        exact hcoherent.sound.last_open hreceipt last hlast
      · obtain ⟨-, hside', hcarrier', -, hnonce'⟩ := haccepts.kept
        exact ⟨⟨hside', hcarrier', hnonce'⟩, haccepts.checkpointable_iff hside⟩
    rw [← hcloses]
    exact exposes_iff (s := s) (.message (.frame e.relay.nextPeerSequence body)) _ _ rfl
      (hside'.trans hside) (hcoherent.opened hpeer) (by rw [hcarrier']; exact hnow)
      (by rw [hnonce']; exact hnonce) (hroom _ hpeer)
      (fun _ _ hsealed => receive_of_transition hidle hfirst trivial hreceived hsealed)
      (fun _ _ hresult => by
        obtain ⟨-, message, hmessage, houtcome⟩ := receive_outcome hresult
        cases hmessage
        exact houtcome)
      (fun _ _ htransition => htransition.received_unique hstate hframe hpeer)

end AllocatorSession

end CredentialV2

/-! ### The sample session, once established -/

namespace CredentialV2
open Codec Calls

attribute [local instance] Primitives.transparent

namespace AllocatorSession

theorem exposes_unless_closing_sample : ∃ (s : AllocatorSession Unit) (e : Established Unit),
    (rehearsed rehearsal).live = some s ∧ s.state = .established e ∧
    ∀ object endpoint, Endpoint.send object e.endpoint = .ok .advanced endpoint →
      (∀ frame e₁, Established.prepareOutbound object e = .ok frame e₁ → e₁.Room (fill 12 [6])) →
      ((∃ frame channel put, SecureChannel.sealFrame object.bytes e.channel = .ok frame channel ∧
          putMessage e.relay.nextLocalSequence frame = .ok put ∧
          Exposes (prepareApplicationObject object 0 (fill 12 [6]) s) [.send put]) ↔
        object.kind.closes = false) := by
  have hrun : ((rehearsed rehearsal).live.any fun s => s.persistenceGate.isNone &&
      (established? s).any fun e => decide (0 < e.endpoint.carrier.relayExpiresAt) &&
        decide (e.endpoint.checkpointNonce ≠ some (fill 12 [6])) &&
        e.relay.cachedOutbound.isNone) = true := by
    decide +kernel
  simp only [Option.any_eq_true, Bool.and_eq_true, decide_eq_true_eq,
    Option.isNone_iff_eq_none] at hrun
  obtain ⟨s, hlive, hgate, e, he, ⟨hnow, hnonce⟩, hcached⟩ := hrun
  rw [established?_eq_some] at he
  refine ⟨s, e, hlive, he, fun object endpoint hsend hroom => ?_⟩
  obtain ⟨hsends, -⟩ := exposes_unless_closing new_sample .confirmed rehearsal hlive he hgate hnow
    hnonce
  exact hsends object endpoint hsend hcached hroom

end AllocatorSession
end CredentialV2
end CbclPairing
