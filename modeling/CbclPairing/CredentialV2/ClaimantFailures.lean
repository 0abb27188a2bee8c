import CbclPairing.CredentialV2.ClaimantProgress
import CbclPairing.CredentialV2.Exposure

/-! Where a failed claimant call may leave the session, and that a session is in one of
its stages after every call. -/
namespace CbclPairing
namespace CredentialV2
open Codec Codec.Cbor Calls

variable [Primitives] {V : Type} [BodyVerifier V]

/-! ### What the reducer admits -/

namespace Endpoint

/-- The object is the next one of the ceremony: from its own sender, at its place, and
of a body that the reducer and the consumer's verifier take. -/
inductive Admits (e : Endpoint V) (object : Object) (sender : Side) : Prop
  | accountSelect {selection : AccountSelect} : object.kind = .accountSelect →
      validSender object.kind sender = true → e.phase = .begin → e.last = none →
      AccountSelect.recognise object e.carrier.carrierCeremonyId e.carrier.applicationContext =
        .ok selection → Admits e object sender
  | offer : object.kind = .offer → validSender object.kind sender = true →
      sender = .allocator → e.side = .allocator → preOffer e.phase = true → Admits e object sender
  | successor {next : Phase} {logical : LogicalBody} {last : LastObject} :
      object.kind ≠ .accountSelect → object.kind ≠ .offer →
      validSender object.kind sender = true → e.intentDigest = some object.intentDigest →
      nextPhase e.phase object.kind = some next → recogniseLogicalBody object = .ok logical →
      logical.carrierCeremonyId = e.carrier.carrierCeremonyId → e.last = some last →
      logical.predecessorDigest = last.contentHash →
      (BodyVerifier.verify e.bodyVerifier logical).1 = .ok () → Admits e object sender

/-- A call that goes through exactly when the object is admitted, and ends the endpoint
otherwise. -/
def Decides (e : Endpoint V) (object : Object) (sender : Side)
    (m : Call Error (Endpoint V) Advance) : Prop :=
  m.Meets (fun advance _ => advance = .advanced ∧ e.Admits object sender)
    (fun _ e' => ¬e.Admits object sender ∧ e'.phase = .terminal) e

variable {e : Endpoint V} {object : Object} {sender : Side}

theorem decides_fail {error : Error} (h : ¬e.Admits object sender) :
    e.Decides object sender (fail error) := ⟨h, rfl⟩

theorem applyAccountSelect_decides (hkind : object.kind = .accountSelect)
    (hsender : validSender object.kind sender = true) :
    e.Decides object sender (applyAccountSelect object sender) := by
  unfold Decides applyAccountSelect
  simp only [Call.meets_bind, Call.meets_get, Call.meets_ite]
  constructor
  · intro hplace
    refine decides_fail fun h => ?_
    cases h with
    | accountSelect _ _ hphase hlast => simp [hphase, hlast] at hplace
    | offer hoffer => cases hkind.symm.trans hoffer
    | successor hselect => exact hselect hkind
  · intro hplace
    simp only [not_or, ne_eq, not_not, Bool.not_eq_true, Option.isSome_eq_false_iff,
      Option.isNone_iff_eq_none] at hplace
    cases hrecognise : AccountSelect.recognise object e.carrier.carrierCeremonyId
      e.carrier.applicationContext with
    | error error =>
      refine decides_fail fun h => ?_
      cases h with
      | accountSelect _ _ _ _ hselection => cases hrecognise.symm.trans hselection
      | offer hoffer => cases hkind.symm.trans hoffer
      | successor hselect => exact hselect hkind
    | ok selection => exact ⟨rfl, .accountSelect hkind hsender hplace.1 hplace.2 hrecognise⟩

theorem applyOffer_decides (hkind : object.kind = .offer)
    (hsender : validSender object.kind sender = true) :
    e.Decides object sender (applyOffer object sender) := by
  unfold Decides applyOffer
  simp only [Call.meets_bind, Call.meets_get, Call.meets_ite]
  constructor
  · intro hroles
    refine decides_fail fun h => ?_
    cases h with
    | accountSelect hselect => cases hkind.symm.trans hselect
    | offer _ _ hallocator hside hpre => simp [hallocator, hside, hpre] at hroles
    | successor _ hoffer => exact hoffer hkind
  · intro hroles
    simp only [not_or, ne_eq, not_not, Bool.not_eq_true', Bool.not_eq_false] at hroles
    exact ⟨rfl, .offer hkind hsender hroles.1 hroles.2.1 hroles.2.2⟩

theorem applySuccessor_decides (hselect : object.kind ≠ .accountSelect)
    (hoffer : object.kind ≠ .offer) (hsender : validSender object.kind sender = true) :
    e.Decides object sender (applySuccessor object sender) := by
  have hfail : ∀ {error : Error}, (∀ {next : Phase} {logical : LogicalBody} {last : LastObject},
      e.intentDigest = some object.intentDigest → nextPhase e.phase object.kind = some next →
      recogniseLogicalBody object = .ok logical →
      logical.carrierCeremonyId = e.carrier.carrierCeremonyId → e.last = some last →
      logical.predecessorDigest = last.contentHash →
      (BodyVerifier.verify e.bodyVerifier logical).1 = .ok () → False) →
      e.Decides object sender (fail error) := by
    intro error hnot
    refine decides_fail fun h => ?_
    cases h with
    | accountSelect hkind => exact hselect hkind
    | offer hkind => exact hoffer hkind
    | successor _ _ _ hintent hnext hlogical hceremony hlast hpredecessor hverdict =>
      exact hnot hintent hnext hlogical hceremony hlast hpredecessor hverdict
  unfold Decides applySuccessor
  rw [Call.meets_bind, Call.meets_get]
  cases hintent : e.intentDigest with
  | none =>
    refine hfail ?_
    intro _ _ _ h
    simp [hintent] at h
  | some expectedIntent =>
    dsimp only
    by_cases hdigest : object.intentDigest = expectedIntent
    swap
    · rw [if_pos hdigest]
      refine hfail ?_
      intro _ _ _ h
      exact absurd (Option.some.inj (hintent.symm.trans h)).symm hdigest
    rw [if_neg (by simpa using hdigest)]
    cases hnext : nextPhase e.phase object.kind with
    | none =>
      refine hfail ?_
      intro _ _ _ _ h
      simp [hnext] at h
    | some next =>
      cases hlogical : recogniseLogicalBody object with
      | error error =>
        refine hfail ?_
        intro _ _ _ _ _ h
        simp [hlogical] at h
      | ok logical =>
        dsimp only
        by_cases hceremony : logical.carrierCeremonyId = e.carrier.carrierCeremonyId
        swap
        · rw [if_pos hceremony]
          refine hfail ?_
          intro _ _ _ _ _ hlogical' h
          obtain rfl := Except.ok.inj (hlogical.symm.trans hlogical')
          exact (hceremony h).elim
        rw [if_neg (by simpa using hceremony)]
        cases hlast : e.last with
        | none =>
          refine hfail ?_
          intro _ _ _ _ _ _ _ h
          simp [hlast] at h
        | some last =>
          dsimp only
          by_cases hpredecessor : logical.predecessorDigest = last.contentHash
          swap
          · rw [if_pos hpredecessor]
            refine hfail ?_
            intro _ _ _ _ _ hlogical' _ hlast' h
            obtain rfl := Except.ok.inj (hlogical.symm.trans hlogical')
            obtain rfl := Option.some.inj (hlast.symm.trans hlast')
            exact (hpredecessor h).elim
          rw [if_neg (by simpa using hpredecessor)]
          cases hverify : BodyVerifier.verify e.bodyVerifier logical with
          | mk verdict v =>
            cases verdict with
            | error error =>
              refine ⟨fun h => ?_, rfl⟩
              cases h with
              | accountSelect hkind => exact hselect hkind
              | offer hkind => exact hoffer hkind
              | successor _ _ _ _ _ hlogical' _ _ _ hverdict =>
                obtain rfl := Except.ok.inj (hlogical.symm.trans hlogical')
                simp [hverify] at hverdict
            | ok =>
              refine ⟨rfl, .successor hselect hoffer hsender ?_ hnext hlogical hceremony hlast
                hpredecessor (by rw [hverify])⟩
              rw [hintent, hdigest]

/-- Past the terminal checks an object goes through exactly when it is admitted. -/
theorem apply_decides (hfresh : e.exactRetransmission object sender = false)
    (hopen : e.phase ≠ .terminal) (hrefusal : ¬(e.phase = .payloadSent ∧ object.kind = .refusal)) :
    e.Decides object sender (apply object sender) := by
  unfold Decides apply
  rw [Call.meets_bind, Call.meets_get, if_neg (by simp [hfresh]), if_neg hopen, if_neg hrefusal]
  by_cases hsender : validSender object.kind sender = true
  swap
  · rw [if_pos (by simpa using hsender)]
    refine decides_fail fun h => ?_
    cases h with
    | accountSelect _ h => exact hsender h
    | offer _ h => exact hsender h
    | successor _ _ h => exact hsender h
  rw [if_neg (by simpa using hsender)]
  by_cases hselect : object.kind = .accountSelect
  · rw [if_pos hselect]
    exact applyAccountSelect_decides hselect hsender
  rw [if_neg hselect]
  by_cases hoffer : object.kind = .offer
  · rw [if_pos hoffer]
    exact applyOffer_decides hoffer hsender
  · rw [if_neg hoffer]
    exact applySuccessor_decides hselect hoffer hsender

end Endpoint

omit [BodyVerifier V] in
/-- A fresh object that was accepted is not the one before it. -/
theorem Endpoint.Accepts.last_ne {e e' : Endpoint V} {object : Object} {sender : Side}
    (h : Endpoint.Accepts object sender e e')
    (hfresh : e.exactRetransmission object sender = false) : e'.last ≠ e.last := by
  intro hsame
  rw [h.kept.1] at hsame
  rw [Endpoint.exactRetransmission, ← hsame] at hfresh
  simp at hfresh

/-! ### Own objects -/

namespace Established

/-- An own object that the reducer refuses, or that would go out under a sequence no
put can carry. -/
structure Strands (e : Established V) (object : Object) : Prop where
  uncached : e.relay.cachedOutbound = none
  sealable : e.channel.canSeal object.bytes = .ok ()
  fresh : e.endpoint.exactRetransmission object e.endpoint.side = false
  open_ : e.endpoint.phase ≠ .terminal
  unrefused : ¬(e.endpoint.phase = .payloadSent ∧ object.kind = .refusal)
  lost : ¬e.endpoint.Admits object e.endpoint.side ∨ 15 < e.relay.nextLocalSequence

omit [BodyVerifier V] in
/-- What half of a call leaves behind. -/
structure Torn (e e' : Established V) : Prop where
  coherent : e'.Coherent
  side : e'.endpoint.side = e.endpoint.side
  carrier : e'.endpoint.carrier = e.endpoint.carrier
  relay : e'.relay = e.relay ∨ ∃ event, e.relay.Step event e'.relay
  moved : e'.endpoint.phase ≠ e.endpoint.phase ∨ e'.endpoint.last ≠ e.endpoint.last ∨
    e'.relay ≠ e.relay

variable {e : Established V} {object : Object}

omit [BodyVerifier V] in
theorem Coherent.withEndpoint (h : e.Coherent) {endpoint : Endpoint V}
    (hside : endpoint.side = e.endpoint.side) (hsound : endpoint.Sound) :
    ({ e with endpoint } : Established V).Coherent :=
  ⟨h.side_eq.trans hside.symm, h.live, h.awaiting, h.sealed_, hsound⟩

/-- A fresh object on a free channel: refused, out of sequences, or cached. -/
theorem prepareOutbound_decides (hcoherent : e.Coherent)
    (huncached : e.relay.cachedOutbound = none)
    (hseal : e.channel.canSeal object.bytes = .ok ())
    (hfresh : e.endpoint.exactRetransmission object e.endpoint.side = false)
    (hopen : e.endpoint.phase ≠ .terminal)
    (hrefusal : ¬(e.endpoint.phase = .payloadSent ∧ object.kind = .refusal)) :
    (prepareOutbound object).Meets (fun _ _ => e.endpoint.Admits object e.endpoint.side)
      (fun _ e' => Torn e e' ∧ (¬e.endpoint.Admits object e.endpoint.side ∨
        checkedSucc e.relay.nextLocalSequence = none)) e := by
  have hdecides := Endpoint.apply_decides hfresh hopen hrefusal
  have houtcome := Endpoint.apply_outcome e.endpoint object e.endpoint.side
  unfold prepareOutbound
  rw [Call.meets_bind, Call.meets_get, if_neg (by simpa using hcoherent.side_eq), huncached]
  simp only [hseal, Call.meets_bind, Call.meets_ofExcept, onEndpoint, Call.meets_zoom]
  refine ⟨fun _ _ => ?_, (by intros; contradiction)⟩
  have hsound := hcoherent.sound
  rw [← Endpoint.send_run] at houtcome
  refine Call.meets_iff.mpr ⟨?_, ?_⟩
  · intro advance endpoint hsend
    obtain ⟨rfl, hadmits⟩ := hdecides.ok hsend
    rw [hsend] at houtcome
    obtain ⟨counter, hcounter⟩ : ∃ counter, e.channel.nextSendCounter = some counter := by
      obtain ⟨-, -, -, hsome⟩ := SecureChannel.canSeal_eq_ok.mp hseal
      exact Option.isSome_iff_exists.mp hsome
    have hsealed := SecureChannel.sealFrame_eq_ok.mpr ⟨hseal, counter, hcounter, rfl, rfl⟩
    have haccepts : Endpoint.Accepts object e.endpoint.side e.endpoint endpoint := by
      cases houtcome with
      | accepted _ _ haccepts => exact haccepts
    obtain ⟨hlast, hside, hcarrier, -⟩ := haccepts.kept
    have hawaiting : e.relay.awaitingAck = false := by
      rw [hcoherent.awaiting, huncached]
      rfl
    simp only [ne_eq, not_true_eq_false, if_false, Call.meets_bind, onChannel, Call.meets_zoom]
    refine Call.meets_of_ok hsealed ?_
    simp only [onRelay, Call.meets_zoom, RelayState.cacheApplicationFrame, Call.meets_bind,
      Call.meets_get, Call.meets_ite, Call.meets_throw, Call.meets_orThrow, Call.meets_set,
      Call.meets_pure]
    refine ⟨fun hbusy => ?_, fun _ => ⟨fun _ _ => hadmits, fun hnone => ⟨?_, .inr hnone⟩⟩⟩
    · exact absurd hbusy (by simp [hawaiting, Frame.isSealed])
    -- the object and its counter are spent, and the projection never took the frame
    · refine ⟨⟨hcoherent.side_eq.trans hside.symm, hcoherent.live, hcoherent.awaiting,
        hcoherent.sealed_, hsound.accepts haccepts⟩, hside, hcarrier, .inl rfl, .inr (.inl ?_)⟩
      exact haccepts.last_ne hfresh
  · intro error endpoint hsend
    obtain ⟨hnot, hterminal⟩ := hdecides.error hsend
    rw [hsend] at houtcome
    cases houtcome with
    | refused hrefused =>
      have hkept : endpoint.side = e.endpoint.side ∧ endpoint.carrier = e.endpoint.carrier := by
        obtain ⟨v, rfl | rfl⟩ := hrefused <;> exact ⟨rfl, rfl⟩
      refine ⟨⟨hcoherent.withEndpoint hkept.1 (hsound.refused hrefused), hkept.1, hkept.2, .inl rfl,
        .inl ?_⟩, .inl hnot⟩
      rw [hterminal]
      exact hopen.symm

/-- Any other object changes nothing. -/
theorem prepareOutbound_idle (hcoherent : e.Coherent)
    (h : ¬(e.relay.cachedOutbound = none ∧ e.channel.canSeal object.bytes = .ok () ∧
      e.endpoint.exactRetransmission object e.endpoint.side = false ∧
      e.endpoint.phase ≠ .terminal ∧
      ¬(e.endpoint.phase = .payloadSent ∧ object.kind = .refusal))) :
    (prepareOutbound object).Meets (fun _ e' => e' = e) (fun _ e' => e' = e) e := by
  unfold prepareOutbound
  rw [Call.meets_bind, Call.meets_get, if_neg (by simpa using hcoherent.side_eq)]
  cases hcached : e.relay.cachedOutbound with
  | some cached =>
    simp only [Call.meets_ite, Call.meets_pure, Call.meets_throw, implies_true, and_self]
  | none =>
    simp only [Call.meets_bind, Call.meets_ofExcept, onEndpoint, Call.meets_zoom]
    refine ⟨fun _ hseal => ?_, fun _ _ => trivial⟩
    simp only [Endpoint.send, Endpoint.apply, Call.meets_bind, Call.meets_get, Call.meets_ite,
      Call.meets_pure, Call.meets_throw]
    refine ⟨fun _ => ?_, fun hfresh => ⟨fun _ => trivial, fun hopen => ⟨fun _ => trivial,
      fun hrefusal => ?_⟩⟩⟩
    · exact ⟨fun _ => trivial, fun hsame => absurd (by decide) hsame⟩
    · exact absurd ⟨hcached, hseal, by simpa using hfresh, hopen, hrefusal⟩ h

/-- A fresh object that was prepared is cached under the next sequence. -/
theorem prepareOutbound_fresh {e' : Established V} {frame : Frame}
    (huncached : e.relay.cachedOutbound = none) (h : prepareOutbound object e = .ok frame e') :
    frame.OfObject ∧ e'.relay.cachedApplicationSequence = .ok e.relay.nextLocalSequence ∧
      RelayState.cacheApplicationFrame frame e.relay = .ok () e'.relay ∧
      Endpoint.send object e.endpoint = .ok .advanced e'.endpoint := by
  obtain ⟨-, ⟨hcached, -⟩ | ⟨-, -, endpoint, channel, relay, hsend, hseal, hcache, rfl⟩⟩ :=
    prepareOutbound_eq_ok.mp h
  · cases huncached.symm.trans hcached
  obtain ⟨-, counter, -, rfl, -⟩ := SecureChannel.sealFrame_eq_ok.mp hseal
  refine ⟨⟨_, _, _, rfl, ciphertext_length e.channel counter object⟩, ?_, hcache, hsend⟩
  obtain ⟨-, -, next, hnext, rfl⟩ := RelayState.cacheApplicationFrame_eq_ok.mp hcache
  exact RelayState.cachedApplicationSequence_eq_ok.mpr
    ⟨rfl, rfl, checkedPred_eq_some.mpr (checkedSucc_eq_some.mp hnext)⟩

end Established

namespace ClaimantSession
open Established

variable {s s' : ClaimantSession V} {e : Established V} {key : Octets 32}

omit [Primitives] [BodyVerifier V] in
theorem putFrame_ofObject {frame : Frame} (h : frame.OfObject) {sequence : UInt8} :
    (∃ put, putFrame sequence frame = .ok put) ↔ sequence ≤ 15 := by
  obtain ⟨hencode, hbody, hle⟩ := h.encoded
  constructor
  · rintro ⟨put, hput⟩
    obtain ⟨body, -, hrecognised, -⟩ := putFrame_eq_ok.mp hput
    simp only [ClientMessage.recognised, Bool.and_eq_true, decide_eq_true_eq] at hrecognised
    exact hrecognised.1
  · intro hsequence
    refine ⟨_, putFrame_eq_ok.mpr ⟨_, hencode, ?_, rfl⟩⟩
    simp only [ClientMessage.recognised, admissibleBody, Bool.and_eq_true, decide_eq_true_eq]
    exact ⟨hsequence, hbody, by omega⟩

/-- An own object with its sequence: nothing moved, or it is torn off when the put that
must follow fails. -/
theorem prepareFrame_meets {object : Object} (hcoherent : e.Coherent) :
    (prepareFrame object).Meets
      (fun p e' => ¬e.Strands object ∧ e' = e ∨
        p.2.OfObject ∧ Torn e e' ∧ (e.Strands object ↔ 15 < p.1))
      (fun _ e' => ¬e.Strands object ∧ e' = e ∨ e.Strands object ∧ Torn e e') e := by
  by_cases hready : e.relay.cachedOutbound = none ∧ e.channel.canSeal object.bytes = .ok () ∧
      e.endpoint.exactRetransmission object e.endpoint.side = false ∧
      e.endpoint.phase ≠ .terminal ∧ ¬(e.endpoint.phase = .payloadSent ∧ object.kind = .refusal)
  · obtain ⟨huncached, hseal, hfresh, hopen, hrefusal⟩ := hready
    have hdecides := prepareOutbound_decides hcoherent huncached hseal hfresh hopen hrefusal
    unfold prepareFrame
    rw [Call.meets_bind]
    refine Call.meets_iff.mpr ⟨?_, ?_⟩
    · intro frame e' hprepare
      have hadmits := hdecides.ok hprepare
      obtain ⟨hobject, hsequence, hcache, hsend⟩ := prepareOutbound_fresh huncached hprepare
      have haccepts := Endpoint.send_advanced hsend
      simp only [Call.meets_bind, Call.meets_get, Call.meets_ofExcept, Call.meets_pure, hsequence]
      refine ⟨?_, (by intros; contradiction)⟩
      rintro _ ⟨⟩
      refine .inr ⟨hobject, ⟨hcoherent.prepared hprepare, haccepts.kept.2.1, haccepts.kept.2.2.1,
        .inr ⟨_, .cached hcache⟩, .inr (.inl (haccepts.last_ne hfresh))⟩, ?_⟩
      exact ⟨fun h => h.lost.resolve_left (not_not.mpr hadmits),
        fun h => ⟨huncached, hseal, hfresh, hopen, hrefusal, .inr h⟩⟩
    · intro error e' hprepare
      obtain ⟨htorn, hlost⟩ := hdecides.error hprepare
      refine .inr ⟨⟨huncached, hseal, hfresh, hopen, hrefusal, hlost.imp id fun hnone => ?_⟩, htorn⟩
      have hlast : e.relay.nextLocalSequence = 255 := by
        unfold checkedSucc at hnone
        split_ifs at hnone with hlast
        exact hlast
      rw [hlast]
      decide
  · have hstrands : ¬e.Strands object := fun h =>
      hready ⟨h.uncached, h.sealable, h.fresh, h.open_, h.unrefused⟩
    have hidle := prepareOutbound_idle hcoherent hready
    unfold prepareFrame
    rw [Call.meets_bind]
    refine hidle.mono ?_ fun _ e' he' => .inl ⟨hstrands, he'⟩
    rintro frame _ rfl
    simp only [Call.meets_bind, Call.meets_get, Call.meets_ofExcept, Call.meets_pure]
    exact ⟨fun _ _ => .inl ⟨hstrands, trivial⟩, fun _ _ => .inl ⟨hstrands, trivial⟩⟩

/-- An own object before the final approval: a failure that strands it tears the session,
and any other changes nothing. -/
theorem prepareApplicationObject_meets {object : Object} (hs : s.Drives e)
    (hgate : s.persistenceGate = none) (hphase : s.phase = .established)
    (hkind : preFinal object.kind = true) :
    (prepareApplicationObject object).Meets (fun _ _ => ¬e.Strands object)
      (fun _ s' => ¬e.Strands object ∧ s' = s ∨
        e.Strands object ∧ ∃ e', Torn e e' ∧ s' = s.withApplication e') s := by
  have hself : s.withApplication e = s := withApplication_self hs.application
  unfold prepareApplicationObject
  rw [Call.meets_bind, Call.meets_get, if_neg (by simp [hgate, hphase, hkind]), Call.meets_bind,
    onApplication, Call.meets_zoom?]
  refine ⟨fun hnone => (by cases hs.application.symm.trans hnone), ?_⟩
  intro e₁ he₁
  obtain rfl := Option.some.inj (hs.application.symm.trans he₁)
  refine (prepareFrame_meets hs.coherent).mono ?_ ?_
  · rintro ⟨sequence, frame⟩ e' hprepared
    rw [Call.meets_bind, Call.meets_ofExcept]
    obtain ⟨hstrands, rfl⟩ | ⟨hobject, htorn, hstrands⟩ := hprepared
    · exact ⟨fun _ _ => hstrands, fun _ _ => .inl ⟨hstrands, hself⟩⟩
    · refine ⟨fun put hput => ?_, fun error hput => ?_⟩
      · rw [Call.meets_pure, hstrands]
        exact UInt8.not_lt.mpr ((putFrame_ofObject hobject).mp ⟨put, hput⟩)
      · refine .inr ⟨hstrands.mpr (UInt8.not_le.mp fun hle => ?_), e', htorn, rfl⟩
        obtain ⟨put, hput'⟩ := (putFrame_ofObject hobject).mpr hle
        cases hput.symm.trans hput'
  · rintro error e' (⟨hstrands, rfl⟩ | ⟨hstrands, htorn⟩)
    · exact .inl ⟨hstrands, hself⟩
    · exact .inr ⟨hstrands, e', htorn, rfl⟩

/-! ### Acknowledgements in a durable phase -/

theorem validateCheckpointPhase_durable {carrier : Carrier} {phase : Phase}
    {receiptReleased : Bool} {now : UInt64} (hdurable : durable phase = true)
    (hlive : ¬(phase = .finalApproved ∧ carrier.relayExpiresAt ≤ now)) :
    validateCheckpointPhase .claimant phase receiptReleased (durableExpiry carrier phase)
      carrier.relayExpiresAt now = .ok () := by
  cases phase with
  | finalApproved =>
    have hnow : now < carrier.relayExpiresAt := by simpa using hlive
    simp only [validateCheckpointPhase, durableExpiry]
    exact validateExpiry_eq_ok.mpr ⟨rfl, hnow⟩
  | payloadSent => rfl
  | _ => cases hdurable

/-- The session after the acknowledgement of its cached frame. -/
def delivered (e : Established V) : Established V :=
  { e with relay := { e.relay with cachedOutbound := none, awaitingAck := false } }

/-- The acknowledgement of the cached frame, with a nonce that was just used or a state
too long to be sealed. -/
structure Spoils (e : Established V) (now : UInt64) (sequence : UInt8) (nonce : Octets 12) :
    Prop where
  live : ¬(e.endpoint.phase = .finalApproved ∧ e.endpoint.carrier.relayExpiresAt ≤ now)
  outstanding : e.relay.cachedApplicationSequence = .ok sequence
  unsealable : e.endpoint.checkpointNonce = some nonce ∨ ¬(delivered e).Room nonce

theorem checkpointCurrent_decides {nonce : Octets 12} {now : UInt64} {expiry : Option UInt64}
    {after : List ClaimantEffect} (he : s.application = some e)
    (hgate : s.persistenceGate = none) (hempty : s.afterPersist = []) :
    (checkpointCurrent key nonce now expiry after).Meets
      (fun _ _ => ∃ checkpoint endpoint, Endpoint.sealCheckpoint e.channel e.relay key
        (saturatingSucc e.endpoint.checkpointGeneration) expiry nonce now e.endpoint =
        .ok checkpoint endpoint)
      (fun _ s' => s' = s ∧ ¬∃ checkpoint endpoint, Endpoint.sealCheckpoint e.channel e.relay key
        (saturatingSucc e.endpoint.checkpointGeneration) expiry nonce now e.endpoint =
        .ok checkpoint endpoint) s := by
  unfold checkpointCurrent
  rw [Call.meets_bind, Call.meets_get, if_neg (by simp [hgate, hempty])]
  simp only [Call.meets_bind, Call.meets_get, onApplication, Call.meets_zoom?, he, reduceCtorEq,
    false_implies, true_and, Option.some.injEq, forall_eq', Established.onEndpoint,
    Call.meets_zoom, Call.meets_pure, Call.meets_modify]
  refine Call.meets_iff.mpr ⟨fun checkpoint endpoint hseal => ⟨checkpoint, endpoint, hseal⟩, ?_⟩
  intro error endpoint hseal
  obtain rfl := Endpoint.sealCheckpoint_error hseal
  refine ⟨withApplication_self he, ?_⟩
  rintro ⟨_, _, hseal'⟩
  cases hseal.symm.trans hseal'

omit [Primitives] [BodyVerifier V] in
theorem not_applied_of_cached {relay : RelayState} {sequence : UInt8}
    (h : relay.cachedApplicationSequence = .ok sequence) :
    relay.acknowledgementAlreadyApplied sequence = false := by
  obtain ⟨hawaiting, -, hlast⟩ := RelayState.cachedApplicationSequence_eq_ok.mp h
  simp [RelayState.acknowledgementAlreadyApplied, hlast, hawaiting]

omit [BodyVerifier V] in
theorem withRelay_self {relay : RelayState} (h : s.relay = some relay) : s.withRelay relay = s := by
  cases s
  simp_all [withRelay]

omit [BodyVerifier V] in
/-- The acknowledgement of a frame that is not outstanding changes nothing. -/
theorem localAck_refused {relay : RelayState} {sequence : UInt8} (hphase : s.phase = .established)
    (hrelay : s.relay = some relay)
    (happlied : ¬relay.acknowledgementAlreadyApplied sequence = true)
    (hcached : relay.cachedApplicationSequence ≠ .ok sequence) :
    (localAck sequence).Meets (fun _ _ => False) (fun _ s' => s' = s) s := by
  unfold localAck
  rw [Call.meets_bind, Call.meets_get, Call.meets_bind, hrelay]
  refine Call.meets_of_ok (Call.run_orThrow_some _ _ s) ?_
  rw [if_neg happlied, if_pos hphase, Call.meets_bind]
  rw [onRelay, Call.meets_zoom?]
  refine ⟨fun hnone => (by cases hrelay.symm.trans hnone), ?_⟩
  intro r hr
  obtain rfl := Option.some.inj (hrelay.symm.trans hr)
  refine Call.meets_iff.mpr ⟨fun _ relay' hack => ?_, fun error relay' hack => ?_⟩
  · exact hcached (RelayState.acknowledgeApplicationFrame_eq_ok.mp hack).1
  · obtain rfl := (RelayState.acknowledgeApplicationFrame_meets _ sequence).error hack
    exact withRelay_self hrelay


theorem receiveDurable_acknowledged (hs : s.Drives e) (hgate : s.persistenceGate = none)
    (hempty : s.afterPersist = []) (hphase : s.phase = .established)
    (hdurable : durable e.endpoint.phase = true) {sequence : UInt8} {now : UInt64}
    {nonce : Octets 12} (hmessage : (ServerMessage.acknowledged sequence).recognised = true) :
    (receiveDurable (.ok ⟨.acknowledged sequence, hmessage⟩) now key nonce).Meets
      (fun _ _ => ¬Spoils e now sequence nonce)
      (fun _ s' => ¬Spoils e now sequence nonce ∧ s' = s ∨
        Spoils e now sequence nonce ∧ s' = s.withApplication (delivered e)) s := by
  obtain ⟨hendpoint, hchannel, hrelay⟩ := application_eq_some.mp hs.application
  have hdurable' : s.hasDurableEndpointPhase = true := by
    rw [hasDurableEndpointPhase, hendpoint]
    exact hdurable
  unfold receiveDurable
  rw [Call.meets_bind, Call.meets_get, if_neg (by simp [hgate, hphase, hdurable']),
    Call.meets_bind, endpointPhase, hendpoint, Call.meets_orThrow]
  refine ⟨?_, (by intros; contradiction)⟩
  rintro _ ⟨⟩
  rw [Call.meets_ite]
  refine ⟨fun hexpired => .inl ⟨fun h => h.live ?_, rfl⟩, fun hlive => ?_⟩
  · rw [hs.carrier]
    exact hexpired
  rw [Call.meets_bind, hrelay, Call.meets_orThrow]
  refine ⟨?_, (by intros; contradiction)⟩
  rintro _ ⟨⟩
  rw [Call.meets_ite]
  refine ⟨fun happlied h => ?_, fun happlied => ?_⟩
  · rw [not_applied_of_cached h.outstanding] at happlied
    cases happlied
  rw [Call.meets_bind]
  by_cases hcached : e.relay.cachedApplicationSequence = .ok sequence
  · have hack := RelayState.acknowledgeApplicationFrame_eq_ok.mpr ⟨hcached, rfl⟩
    have hnone : ([] : List ClaimantEffect) = [] := rfl
    have hmoved := (localAck_established hphase hs.application).mpr
      ⟨hnone, .inr ⟨by simpa using happlied, _, hack, rfl⟩⟩
    have hvalid : validateCheckpointPhase (delivered e).endpoint.side (delivered e).endpoint.phase
        (delivered e).endpoint.receiptReleased (durableExpiry s.carrier e.endpoint.phase)
        (delivered e).endpoint.carrier.relayExpiresAt now = .ok () := by
      rw [show (delivered e).endpoint = e.endpoint from rfl, hs.side, hs.carrier]
      exact validateCheckpointPhase_durable hdurable hlive
    have hroom : (∃ checkpoint endpoint, Endpoint.sealCheckpoint (delivered e).channel
        (delivered e).relay key (saturatingSucc (delivered e).endpoint.checkpointGeneration)
        (durableExpiry s.carrier e.endpoint.phase) nonce now (delivered e).endpoint =
        .ok checkpoint endpoint) ↔
        (delivered e).endpoint.checkpointNonce ≠ some nonce ∧ (delivered e).Room nonce :=
      sealCheckpoint_room key (hs.coherent.acknowledged hack) hvalid
    have hspoils : Spoils e now sequence nonce ↔
        ¬((delivered e).endpoint.checkpointNonce ≠ some nonce ∧ (delivered e).Room nonce) := by
      rw [not_and_or, not_not]
      refine ⟨fun h => h.unsealable, fun h => ⟨?_, hcached, h⟩⟩
      rwa [hs.carrier]
    refine Call.meets_of_ok hmoved ?_
    refine (checkpointCurrent_decides (s.withApplication_application (delivered e)) hgate
      hempty).mono ?_ ?_
    · intro _ _ hsealed
      rw [hspoils, not_not]
      exact hroom.mp hsealed
    · rintro _ _ ⟨rfl, hsealed⟩
      refine .inr ⟨hspoils.mpr fun h => hsealed (hroom.mpr h), rfl⟩
  · have hspoils : ¬Spoils e now sequence nonce := fun h => hcached h.outstanding
    exact (localAck_refused hphase hrelay happlied hcached).mono (fun _ _ h => h.elim)
      fun _ _ h => .inl ⟨hspoils, h⟩

/-! ### Every failed call -/

/-- The session with another state of the consumer's verifier. -/
def withVerifier (s : ClaimantSession V) (v : V) : ClaimantSession V :=
  { s with endpoint := s.endpoint.map fun e => { e with bodyVerifier := v } }

/-- Nothing has changed, but for what the consumer's verifier keeps to itself. -/
def Same (s s' : ClaimantSession V) : Prop := s' = s ∨ ∃ v, s' = s.withVerifier v

/-- The calls that can fail halfway: an own object before the final approval that is
stranded, and an acknowledgement that cannot be checkpointed. -/
inductive Tears (s : ClaimantSession V) : ClaimantCall → Prop
  | prepares {e : Established V} {object : Object} : s.application = some e →
      s.persistenceGate = none → s.phase = .established → preFinal object.kind = true →
      e.Strands object → Tears s (.prepareApplicationObject object)
  | acknowledges {e : Established V} {sequence : UInt8} {now : UInt64} {nonce : Octets 12}
      {hmessage : (ServerMessage.acknowledged sequence).recognised = true} :
      s.application = some e → s.persistenceGate = none → s.phase = .established →
      durable e.endpoint.phase = true → Spoils e now sequence nonce →
      Tears s (.receiveDurable (.ok ⟨.acknowledged sequence, hmessage⟩) now nonce)

/-- Where a failed call leaves a session. -/
inductive Failed (s : ClaimantSession V) (c : ClaimantCall) : ClaimantSession V → Prop
  | same {s' : ClaimantSession V} : ¬s.Tears c → s.Same s' → Failed s c s'
  | ended {s' : ClaimantSession V} : ¬s.Tears c → Failed s c s'.terminate
  | torn {e e' : Established V} : s.Tears c → s.application = some e → s.phase = .established →
      s.persistenceGate = none → Torn e e' → Failed s c (s.withApplication e')

variable {c : ClaimantCall}

omit [BodyVerifier V] in
theorem torn_delivered {sequence : UInt8} (h : e.Coherent)
    (hcached : e.relay.cachedApplicationSequence = .ok sequence) : Torn e (delivered e) := by
  have hack := RelayState.acknowledgeApplicationFrame_eq_ok.mpr ⟨hcached, rfl⟩
  refine ⟨h.acknowledged hack, rfl, rfl, .inr ⟨_, .delivered hack⟩, .inr (.inr fun hsame => ?_)⟩
  obtain ⟨hawaiting, -⟩ := RelayState.cachedApplicationSequence_eq_ok.mp hcached
  have hcleared : (delivered e).relay.awaitingAck = false := rfl
  rw [hsame, hawaiting] at hcleared
  cases hcleared

theorem prepareApplicationObject_fails (hs : s.Stage) (object : Object) :
    (prepareApplicationObject object).Meets
      (fun _ _ => ¬s.Tears (.prepareApplicationObject object))
      (fun _ => s.Failed (.prepareApplicationObject object)) s := by
  by_cases hguard : s.persistenceGate.isSome ∨ s.phase ≠ .established ∨ !preFinal object.kind
  · have htears : ¬s.Tears (.prepareApplicationObject object) := by
      rintro ⟨-, hgate, hphase, hkind, -⟩
      simp [hgate, hphase, hkind] at hguard
    unfold prepareApplicationObject
    rw [Call.meets_bind, Call.meets_get, if_pos hguard]
    exact .same htears (.inl rfl)
  simp only [not_or, ne_eq, not_not, Bool.not_eq_true, Bool.not_eq_true', Bool.not_eq_false,
    Option.isSome_eq_false_iff, Option.isNone_iff_eq_none] at hguard
  obtain ⟨hgate, hphase, hkind⟩ := hguard
  obtain ⟨e, hdrives, -⟩ := hs.running_of hphase
  have htears : s.Tears (.prepareApplicationObject object) ↔ e.Strands object := by
    refine ⟨?_, .prepares hdrives.application hgate hphase hkind⟩
    rintro ⟨he, -, -, -, hstrands⟩
    rwa [Option.some.inj (hdrives.application.symm.trans he)]
  refine (prepareApplicationObject_meets hdrives hgate hphase hkind).mono ?_ ?_
  · intro _ _ h
    rwa [htears]
  · rintro _ _ (⟨h, rfl⟩ | ⟨h, e', htorn, rfl⟩)
    · exact .same (htears.not.mpr h) (.inl rfl)
    · exact .torn (htears.mpr h) hdrives.application hphase hgate htorn

theorem receiveDurable_fails (hs : s.Stage) (input : ServerInput) (now : UInt64)
    (nonce : Octets 12) :
    (receiveDurable input now key nonce).Meets
      (fun _ _ => ¬s.Tears (.receiveDurable input now nonce))
      (fun _ => s.Failed (.receiveDurable input now nonce)) s := by
  by_cases hguard : s.persistenceGate.isSome ∨ s.phase ≠ .established ∨ !s.hasDurableEndpointPhase
  · have htears : ¬s.Tears (.receiveDurable input now nonce) := by
      intro htears
      cases htears with
      | acknowledges he hgate hphase hdurable =>
        simp [hgate, hphase, hasDurableEndpointPhase, (application_eq_some.mp he).1, hdurable]
          at hguard
    unfold receiveDurable
    rw [Call.meets_bind, Call.meets_get, if_pos hguard]
    exact .same htears (.inl rfl)
  have hopen := hguard
  simp only [not_or, ne_eq, not_not, Bool.not_eq_true, Bool.not_eq_true', Bool.not_eq_false,
    Option.isSome_eq_false_iff, Option.isNone_iff_eq_none] at hguard
  obtain ⟨hgate, hphase, hdurable⟩ := hguard
  obtain ⟨e, hdrives, hempty⟩ := hs.running_of hphase
  have hdurable' : durable e.endpoint.phase = true := by
    rwa [hasDurableEndpointPhase, (application_eq_some.mp hdrives.application).1] at hdurable
  by_cases hinput : ∃ sequence hmessage, input = .ok ⟨.acknowledged sequence, hmessage⟩
  · obtain ⟨sequence, hmessage, rfl⟩ := hinput
    have htears : s.Tears (.receiveDurable (.ok ⟨.acknowledged sequence, hmessage⟩) now nonce) ↔
        Spoils e now sequence nonce := by
      refine ⟨?_, .acknowledges hdrives.application hgate hphase hdurable'⟩
      intro htears
      cases htears with
      | acknowledges he _ _ _ hspoils =>
        rwa [Option.some.inj (hdrives.application.symm.trans he)]
    refine (receiveDurable_acknowledged hdrives hgate (hempty hgate) hphase hdurable'
      hmessage).mono ?_ ?_
    · intro _ _ h
      rwa [htears]
    · rintro _ _ (⟨h, rfl⟩ | ⟨h, rfl⟩)
      · exact .same (htears.not.mpr h) (.inl rfl)
      · exact .torn (htears.mpr h) hdrives.application hphase hgate
          (torn_delivered hdrives.coherent h.outstanding)
  · have htears : ¬s.Tears (.receiveDurable input now nonce) := by
      rintro ⟨⟩
      exact hinput ⟨_, _, rfl⟩
    have hsame : s.Failed (.receiveDurable input now nonce) s := .same htears (.inl rfl)
    unfold receiveDurable
    rw [Call.meets_bind, Call.meets_get, if_neg hopen]
    simp only [Call.meets_bind, Call.meets_orThrow, Call.meets_ite, Call.meets_throw]
    refine ⟨fun _ _ => ⟨fun _ => hsame, fun _ => ?_⟩, fun _ => hsame⟩
    split
    · exact hsame
    · next sequence hmessage => exact absurd ⟨sequence, hmessage, rfl⟩ hinput
    · exact hsame

omit [BodyVerifier V] in
theorem same_endpoint {e : Endpoint V} (h : s.endpoint = some e) (v : V) :
    s.Same { s with endpoint := some { e with bodyVerifier := v } } :=
  .inr ⟨v, by rw [withVerifier, h]; rfl⟩

/-- A failed call of a staged session: nothing has changed, the session has ended, or the
call was one of those that fail halfway. -/
theorem call_fails (hs : s.Stage) (c : ClaimantCall) :
    (call key c).Meets (fun _ _ => ¬s.Tears c) (fun _ => s.Failed c) s := by
  have hguarded : ∀ {α : Type} {c : ClaimantCall} (m : Call Error (ClaimantSession V) α),
      ¬s.Tears c → (guarded m).Meets (fun _ _ => ¬s.Tears c) (fun _ => s.Failed c) s := by
    intro α c m htears
    exact guarded_fails (fun _ _ => .ended htears)
      (Call.meets_iff.mpr ⟨fun _ _ _ => htears, fun _ _ _ => trivial⟩)
  cases c with
  | start =>
    have htears : ¬s.Tears .start := (by intro h; cases h)
    simp only [call, Call.meets_bind, Call.meets_get, Call.meets_ofExcept, Call.meets_pure]
    exact ⟨fun _ _ => htears, fun _ _ => .same htears (.inl rfl)⟩
  | receive input now =>
    have htears : ¬s.Tears (.receive input now) := (by intro h; cases h)
    simp only [call, receive, Call.meets_bind, Call.meets_get, Call.meets_ite, Call.meets_throw,
      Call.meets_modify]
    exact ⟨fun _ => .same htears (.inl rfl), fun _ => ⟨fun _ => .same htears (.inl rfl),
      fun _ => ⟨fun _ => .ended htears, fun _ => hguarded _ htears⟩⟩⟩
  | authoriseAuthenticatedProfile offerVerifier =>
    have htears : ¬s.Tears (.authoriseAuthenticatedProfile offerVerifier) := (by intro h; cases h)
    simp only [call, authoriseAuthenticatedProfile, Call.meets_bind, Call.meets_get,
      Call.meets_ite, Call.meets_throw, Call.meets_set, Call.meets_pure]
    exact ⟨fun _ => .same htears (.inl rfl), fun _ => htears⟩
  | prepareApplicationObject object => exact prepareApplicationObject_fails hs object
  | prepareFinalApproval object nonce now =>
    have htears : ¬s.Tears (.prepareFinalApproval object nonce now) := (by intro h; cases h)
    simp only [call, prepareFinalApproval]
    rw [Call.meets_bind, Call.meets_get, Call.meets_ite]
    exact ⟨fun _ => .same htears (.inl rfl), fun _ => hguarded _ htears⟩
  | checkpointPersisted generation =>
    have htears : ¬s.Tears (.checkpointPersisted generation) := (by intro h; cases h)
    simp only [call, checkpointPersisted, Call.meets_bind, Call.meets_get, Call.meets_ite,
      Call.meets_throw, Call.meets_set, Call.meets_pure]
    exact ⟨fun _ => .same htears (.inl rfl), fun _ => htears⟩
  | resumeCachedFrame =>
    have htears : ¬s.Tears .resumeCachedFrame := (by intro h; cases h)
    simp only [call, Call.meets_bind, Call.meets_get, Call.meets_ofExcept]
    exact ⟨fun _ _ => htears, fun _ _ => .same htears (.inl rfl)⟩
  | preparePayload object nonce now =>
    have htears : ¬s.Tears (.preparePayload object nonce now) := (by intro h; cases h)
    simp only [call, preparePayload]
    rw [Call.meets_bind, Call.meets_get, Call.meets_ite, Call.meets_ite]
    exact ⟨fun _ => .same htears (.inl rfl), fun _ => ⟨fun _ => .same htears (.inl rfl),
      fun _ => hguarded _ htears⟩⟩
  | receiveDurable input now nonce => exact receiveDurable_fails hs input now nonce
  | receiveRecoveredReceipt input =>
    have htears : ¬s.Tears (.receiveRecoveredReceipt input) := (by intro h; cases h)
    simp only [call, receiveRecoveredReceipt]
    rw [Call.meets_bind, Call.meets_bind, Call.meets_get, Call.meets_ite]
    exact ⟨fun _ => .same htears (.inl rfl), fun _ => (hguarded _ htears).mono
      (fun _ _ h => h) fun _ _ h => h⟩
  | authenticateRecoveredReceiptObject object =>
    have htears : ¬s.Tears (.authenticateRecoveredReceiptObject object) := (by intro h; cases h)
    simp only [call, authenticateRecoveredReceiptObject, Call.meets_bind, Call.meets_get,
      Call.meets_ite, Call.meets_throw, Call.meets_modify, Call.meets_pure, onEndpoint,
      Call.meets_zoom?]
    refine ⟨fun _ => .same htears (.inl rfl), fun _ => ⟨fun _ => .same htears (.inl rfl), ?_⟩⟩
    intro e he
    refine (e.authenticateRecoveredReceipt_meets object).mono (fun _ _ _ => htears) ?_
    rintro _ _ ⟨v, rfl⟩
    exact .same htears (same_endpoint he v)
  | commitRecoveredReceipt receipt =>
    have htears : ¬s.Tears (.commitRecoveredReceipt receipt) := (by intro h; cases h)
    have hsame : s.Failed (.commitRecoveredReceipt receipt) s := .same htears (.inl rfl)
    simp only [call, commitRecoveredReceipt]
    rw [Call.meets_bind, Call.meets_get, Call.meets_ite]
    refine ⟨fun _ => hsame, fun _ => ?_⟩
    have hcommit : ∀ effects : List ClaimantEffect, (do
        let _ ← onEndpoint (Endpoint.recoverReceipt receipt.object receipt.authority)
        modify terminate
        pure effects : Call Error (ClaimantSession V) (List ClaimantEffect)).Meets
        (fun _ _ => ¬s.Tears (.commitRecoveredReceipt receipt))
        (fun _ => s.Failed (.commitRecoveredReceipt receipt)) s := by
      intro effects
      simp only [Call.meets_bind, onEndpoint, Call.meets_zoom?, Call.meets_modify,
        Call.meets_pure]
      refine ⟨fun _ => hsame, fun e he => Call.meets_iff.mpr ⟨fun _ _ _ => htears, ?_⟩⟩
      intro _ e' hrecover
      obtain rfl := Endpoint.recoverReceipt_error hrecover
      exact .same htears (same_endpoint he e'.bodyVerifier)
    cases receipt.peerSeq with
    | none => exact hcommit []
    | some peerSeq =>
      rw [Call.meets_bind, Call.meets_bind, Call.meets_ofExcept]
      exact ⟨fun ack _ => hcommit [ack], fun _ _ => hsame⟩

/-! ### The stage after a call -/

omit [BodyVerifier V] in
/-- A terminated session is in its first stage again. -/
theorem stage_terminate (s : ClaimantSession V) : s.terminate.Stage :=
  .starting ⟨rfl, fun _ _ => rfl, rfl, rfl, (by intros; contradiction),
  (by intros; contradiction)⟩ (by intro h; cases h) (by intro h; cases h)

theorem Begins.stage (h : s.Begins) : s.Stage := by
  cases h with
  | new input v => exact .starting ⟨rfl, fun _ _ => rfl, rfl, rfl, (by intros; contradiction),
      (by intros; contradiction)⟩ (by intro h; cases h) (by intro h; cases h)
  | restored h =>
    unfold restore at h
    rw [Calls.except_bind_eq_ok] at h
    obtain ⟨e, hrestored, h⟩ := h
    obtain ⟨-, h⟩ := Calls.guard_eq_ok.mp h
    obtain rfl := Except.ok.inj h
    have hreopened := Endpoint.restoreCheckpoint_eq_ok hrestored
    exact .running ⟨rfl, hreopened.coherent, hreopened.side, hreopened.carrier⟩ rfl fun _ => rfl

/-- What moves in an application state that is still the same ceremony's. -/
structure Moved (e e' : Established V) : Prop where
  coherent : e'.Coherent
  side : e'.endpoint.side = e.endpoint.side
  carrier : e'.endpoint.carrier = e.endpoint.carrier

omit [BodyVerifier V] in
theorem Drives.moved {e' : Established V} (h : s.Drives e) (hmoved : Moved e e') :
    (s.withApplication e').Drives e' :=
  ⟨s.withApplication_application e', hmoved.coherent, hmoved.side.trans h.side,
    hmoved.carrier.trans h.carrier⟩

omit [BodyVerifier V] in
theorem moved_verifier (h : e.Coherent) (v : V) :
    Moved e { e with endpoint := { e.endpoint with bodyVerifier := v } } :=
  ⟨h.withEndpoint rfl (h.sound.refused ⟨v, .inl rfl⟩), rfl, rfl⟩

theorem moved_prepared {e' : Established V} {object : Object} {frame : Frame} (h : e.Coherent)
    (hprepare : prepareOutbound object e = .ok frame e') : Moved e e' := by
  have hprepared := h.prepared hprepare
  obtain ⟨-, ⟨-, -, rfl⟩ | ⟨-, -, endpoint, channel, relay, hsend, -, -, rfl⟩⟩ :=
    prepareOutbound_eq_ok.mp hprepare
  · exact ⟨h, rfl, rfl⟩
  · obtain ⟨-, hside, hcarrier, -⟩ := (Endpoint.send_advanced hsend).kept
    exact ⟨hprepared, hside, hcarrier⟩

theorem Prepares.moved {e' : Established V} {object : Object} {sequence : UInt8} {body : Bytes}
    (h : Prepares object e e' sequence body) (hcoherent : e.Coherent) : Moved e e' := by
  cases h with
  | intro hprepare => exact moved_prepared hcoherent hprepare

theorem Takes.moved {e' : Established V} {object : Object} (h : Takes e object e')
    (hcoherent : e.Coherent) : Moved e e' := by
  cases h with
  | @intro peerSeq frame plaintext relay channel endpoint advance haccept hopen _ hreceived =>
    obtain ⟨-, next, -, rfl⟩ := RelayState.acceptPeerSequence_eq_ok.mp haccept
    obtain ⟨-, counter, ciphertext, -, -, -, -, rfl⟩ := SecureChannel.openFrame_eq_ok.mp hopen
    have hkept : endpoint.Sound ∧ endpoint.side = e.endpoint.side ∧
        endpoint.carrier = e.endpoint.carrier := by
      obtain ⟨check, -, hoffer⟩ | hreceive := hreceived
      · have houtcome := e.endpoint.receiveOffer_outcome object check
        rw [hoffer] at houtcome
        cases houtcome with
        | retransmission => exact ⟨hcoherent.sound, rfl, rfl⟩
        | accepted _ _ haccepts =>
          exact ⟨hcoherent.sound.accepts haccepts, haccepts.kept.2.1, haccepts.kept.2.2.1⟩
      · obtain ⟨-, rfl⟩ | haccepts := Endpoint.receive_ok hreceive
        · exact ⟨hcoherent.sound, rfl, rfl⟩
        · exact ⟨hcoherent.sound.accepts haccepts, haccepts.kept.2.1, haccepts.kept.2.2.1⟩
    exact ⟨⟨hcoherent.side_eq.trans hkept.2.1.symm, hcoherent.live, hcoherent.awaiting,
      hcoherent.sealed_, hkept.1⟩, hkept.2.1, hkept.2.2⟩

theorem Covers.moved {e₁ : Established V} {after : List ClaimantEffect} (h : Covers e e₁ after)
    (hcoherent : e.Coherent) : Moved e e₁ := by
  cases h with
  | object _ hprepares => exact hprepares.moved hcoherent
  | acknowledged _ hack => exact ⟨hcoherent.acknowledged hack, rfl, rfl⟩

omit [BodyVerifier V] in
/-- A running session after its application state has moved. -/
theorem Stage.moved {e' : Established V} (h : s.Stage) (he : s.application = some e)
    (hphase : s.phase = .established) (hmoved : e.Coherent → Moved e e') {s' : ClaimantSession V}
    (happlication : s'.application = some e') (hphase' : s'.phase = .established)
    (hcarrier : s'.carrier = s.carrier)
    (hempty : s'.persistenceGate = none → s'.afterPersist = []) : s'.Stage := by
  obtain ⟨_, hdrives, -⟩ := h.running_of hphase
  obtain rfl := Option.some.inj (he.symm.trans hdrives.application)
  have hmoved := hmoved hdrives.coherent
  refine .running ⟨happlication, hmoved.coherent, hmoved.side.trans hdrives.side, ?_⟩ hphase' hempty
  rw [hmoved.carrier, hdrives.carrier, hcarrier]

omit [BodyVerifier V] in
theorem Confirmed.side (h : Confirmed e) : e.endpoint.side = .claimant := by
  obtain ⟨_, _, hendpoint⟩ := h.endpoint
  rw [hendpoint]
  rfl

omit [BodyVerifier V] in
theorem Confirmed.coherent (h : Confirmed e) : e.Coherent := by
  obtain ⟨pending, frame, hconfirm, hpending⟩ := h.pending
  obtain ⟨hlocal, -, hlive, -, -⟩ := PendingChannel.confirm_eq_ok hconfirm
  obtain ⟨carrier, v, hendpoint⟩ := h.endpoint
  have hnew : e = ⟨{ Endpoint.new .claimant carrier v with
      checkpointGeneration := 0, checkpointNonce := none }, e.channel, e.relay⟩ := by
    obtain ⟨endpoint, channel, relay⟩ := e
    obtain rfl := hendpoint
    rfl
  rw [hnew]
  exact coherent_new (hlocal.trans hpending) hlive h.awaiting h.uncached

theorem Progress.stage {effects : List ClaimantEffect} (h : Progress key s c effects s')
    (hs : s.Stage) : s'.Stage := by
  have hidle : s.persistenceGate = none → s.phase = .established → s.afterPersist = [] := by
    intro hgate hphase
    obtain ⟨_, -, hempty⟩ := hs.running_of hphase
    exact hempty hgate
  cases h with
  | silent => exact hs
  | bootstrapped _ hstarting hestablished hawaiting => exact .starting hstarting hestablished hawaiting
  | @confirmed _ _ e _ _ he hconfirmed hcarrier hphase hgate hempty =>
    exact .awaiting ⟨he, hconfirmed.coherent, hconfirmed.side, hcarrier⟩ hphase hgate hempty
  | authorised hphase =>
    cases hs with
    | starting _ _ hawaiting => exact absurd hphase hawaiting
    | awaiting hdrives _ _ hempty =>
      exact .running ⟨hdrives.application, hdrives.coherent, hdrives.side, hdrives.carrier⟩ rfl
        fun _ => hempty
    | running _ hestablished => cases hphase.symm.trans hestablished
  | taken hphase he hgate _ htakes =>
    exact hs.moved he hphase htakes.moved rfl hphase rfl fun _ => hidle hgate hphase
  | acknowledged hphase he hgate _ hack =>
    exact hs.moved he hphase (fun h => ⟨h.acknowledged hack, rfl, rfl⟩) rfl hphase rfl
      fun _ => hidle hgate hphase
  | sent _ hphase he hgate _ hprepares =>
    exact hs.moved he hphase hprepares.moved rfl hphase rfl fun _ => hidle hgate hphase
  | sealed_ hphase he _ _ hcovers _ hseal =>
    obtain ⟨-, -, -, -, rfl⟩ := Endpoint.sealCheckpoint_eq_ok.mp hseal
    refine hs.moved he hphase (fun h => ?_) rfl hphase rfl (by intros; contradiction)
    have hmoved := hcovers.moved h
    exact ⟨hmoved.coherent.stamped _ _, hmoved.side, hmoved.carrier⟩
  | persisted _ hgate =>
    cases hs with
    | starting hstarting => cases hgate.symm.trans hstarting.ungated
    | awaiting _ _ hungated => cases hgate.symm.trans hungated
    | running hdrives hphase =>
      exact .running ⟨hdrives.application, hdrives.coherent, hdrives.side, hdrives.carrier⟩ hphase
        fun _ => rfl
  | resumed => exact hs
  | @receipt e e' _ hphase he hgate _ hs' hrelay _ hside hlive hverifier =>
    subst hs'
    refine hs.moved he hphase (fun h => ?_) rfl hphase rfl fun _ => hidle hgate hphase
    obtain ⟨v, hendpoint⟩ := hverifier
    have hcached : e'.relay.awaitingAck = e.relay.awaitingAck ∧
        e'.relay.cachedOutbound = e.relay.cachedOutbound := by
      obtain hsame | ⟨n, haccept⟩ := hrelay
      · rw [hsame]
        exact ⟨rfl, rfl⟩
      · obtain ⟨-, next, -, hmoved⟩ := RelayState.acceptPeerSequence_eq_ok.mp haccept
        rw [hmoved]
        exact ⟨rfl, rfl⟩
    refine ⟨⟨?_, hlive.trans h.live, ?_, ?_, ?_⟩, by rw [hendpoint], by rw [hendpoint]⟩
    · rw [hside, h.side_eq, hendpoint]
    · rw [hcached.1, hcached.2, h.awaiting]
    · rw [hcached.2, h.sealed_]
    · rw [hendpoint]
      exact h.sound.refused ⟨v, .inl rfl⟩
  | ended => exact stage_terminate _

omit [BodyVerifier V] in
theorem Drives.withVerifier (h : s.Drives e) (v : V) : (s.withVerifier v).Drives
    { e with endpoint := { e.endpoint with bodyVerifier := v } } := by
  obtain ⟨hendpoint, hchannel, hrelay⟩ := application_eq_some.mp h.application
  have hmoved := moved_verifier h.coherent v
  refine ⟨application_eq_some.mpr ⟨?_, hchannel, hrelay⟩, hmoved.coherent, h.side, h.carrier⟩
  rw [ClaimantSession.withVerifier, hendpoint]
  rfl

omit [BodyVerifier V] in
theorem Stage.withVerifier (h : s.Stage) (v : V) : (s.withVerifier v).Stage := by
  cases h with
  | starting hstarting hestablished hawaiting =>
    refine .starting ⟨?_, hstarting.unjoined, hstarting.ungated, hstarting.empty,
      hstarting.uncached, hstarting.side⟩ hestablished hawaiting
    rw [ClaimantSession.withVerifier, hstarting.endpoint]
    rfl
  | awaiting hdrives hphase hgate hempty =>
    exact .awaiting (hdrives.withVerifier v) hphase hgate hempty
  | running hdrives hphase hempty => exact .running (hdrives.withVerifier v) hphase hempty

theorem Failed.stage (h : s.Failed c s') (hs : s.Stage) : s'.Stage := by
  cases h with
  | same _ hsame =>
    obtain rfl | ⟨v, rfl⟩ := hsame
    · exact hs
    · exact hs.withVerifier v
  | ended => exact stage_terminate _
  | torn _ he hphase hgate htorn =>
    obtain ⟨_, -, hempty⟩ := hs.running_of hphase
    exact hs.moved he hphase (fun _ => ⟨htorn.coherent, htorn.side, htorn.carrier⟩) rfl hphase rfl
      fun _ => hempty hgate

/-- One public call of a run. -/
def act (a : ClaimantAct) : Call Error (ClaimantSession V) (List ClaimantEffect) := call a.1 a.2

/-- Every call keeps a session in one of its stages. -/
theorem act_stage (a : ClaimantAct) (s : ClaimantSession V) (hs : s.Stage) :
    (Call.after (act a s)).Stage := by
  cases hcall : act a s with
  | ok effects s' => exact (call_progress hs hcall).stage hs
  | error e s' => exact ((call_fails hs a.2).error hcall).stage hs

end ClaimantSession
end CredentialV2
end CbclPairing
