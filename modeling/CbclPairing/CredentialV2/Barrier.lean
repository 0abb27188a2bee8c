import CbclPairing.CredentialV2.AllocatorRuns
import Mathlib.Data.List.Chain

/-! The persistence barrier of an allocator session: nothing leaves it before a
confirmed checkpoint holds the transition it belongs to. -/
namespace CbclPairing
namespace CredentialV2
open Codec Codec.Cbor Calls

variable [Primitives] {V : Type}

/-! ### Effects a state accounts for -/

namespace AllocatorState

/-- The state already holds the transition an effect belongs to: the allocation,
the confirmed channel, the recorded object, the cached frame at its sequence, or
the accepted peer sequence. -/
inductive Contains : AllocatorState V → AllocatorEffect → Prop
  | allocation {b : Bootstrap} : b.phase = .allocated →
      Contains (.bootstrap b) (.pendingAllocation (encodeCarrier b.carrier))
  | establishment {e : Established V} :
      Contains (.established e) (.established e.channel.transcriptHash)
  | object {e : Established V} {object : Object} :
      e.endpoint.last = some ⟨.claimant, some object.bytes, object.kind, object.intentDigest,
        object.contentHash⟩ →
      Contains (.established e) (.receivedObject object)
  | bootstrapPut {b : Bootstrap} {sequence : UInt8} {frame : Frame} {body : Bytes} :
      b.relay.awaitingAck = true → checkedPred b.relay.nextLocalSequence = some sequence →
      b.cachedOutbound = some frame → encodeFrame frame = .ok body →
      Contains (.bootstrap b) (.send (.put sequence body))
  | applicationPut {e : Established V} {sequence : UInt8} {frame : Frame} {body : Bytes} :
      e.relay.awaitingAck = true → checkedPred e.relay.nextLocalSequence = some sequence →
      e.relay.cachedOutbound = some frame → encodeFrame frame = .ok body →
      Contains (.established e) (.send (.put sequence body))
  | bootstrapAck {b : Bootstrap} {sequence : UInt8} :
      (sequence < b.relay.nextPeerSequence ∨ (sequence = 0 ∧ b.peerCpace.isSome = true)) →
      Contains (.bootstrap b) (.send (.ack sequence))
  | applicationAck {e : Established V} {sequence : UInt8} : sequence < e.relay.nextPeerSequence →
      Contains (.established e) (.send (.ack sequence))

def generation : AllocatorState V → UInt64
  | .bootstrap b => b.checkpointGeneration
  | .established e => e.endpoint.checkpointGeneration
  | _ => 0

/-- An established state is the allocator's, and a latest object of the claimant
is recorded with its bytes. -/
def Sided : AllocatorState V → Prop
  | .established e => e.endpoint.side = .allocator ∧
      ∀ last ∈ e.endpoint.last, last.sender = .claimant → last.bytes.isSome = true
  | _ => True

end AllocatorState

namespace AllocatorEffect

def generation? : AllocatorEffect → Option UInt64
  | .checkpoint generation _ _ => some generation
  | _ => none

/-- A put or an acknowledgement. -/
def Transfer : AllocatorEffect → Prop
  | .send (.put _ _) => True
  | .send (.ack _) => True
  | _ => False

/-- What tells the host or the relay about a transition. -/
def Announces : AllocatorEffect → Prop
  | .pendingAllocation _ => True
  | .established _ => True
  | .receivedObject _ => True
  | effect => effect.Transfer

end AllocatorEffect

theorem AllocatorState.Contains.no_checkpoint {state : AllocatorState V} {effect : AllocatorEffect}
    (h : state.Contains effect) : effect.generation? = none := by
  cases h <;> rfl

/-! ### Relay sequences -/

omit [Primitives] in
theorem lt_of_checkedSucc {n next : UInt8} (h : checkedSucc n = some next) (m : UInt8) :
    m < next ↔ m < n ∨ m = n := by
  rw [checkedSucc_eq_some] at h
  rw [UInt8.lt_iff_toNat_lt, UInt8.lt_iff_toNat_lt, ← UInt8.toNat_inj]
  omega

omit [Primitives] in
theorem checkedPred_of_checkedSucc {n next : UInt8} (h : checkedSucc n = some next) :
    checkedPred next = some n := by
  rw [checkedSucc_eq_some] at h
  rw [checkedPred_eq_some]
  exact h

namespace AllocatorSession
open AllocatorState

variable [BodyVerifier V]

/-! ### Transitions -/

theorem openPeerObject_last {peerSeq : UInt8} {frame : Frame} {object : Object}
    {e e' : Established V} (h : openPeerObject peerSeq frame e = .ok object e')
    (hsided : (AllocatorState.established e).Sided) :
    e'.endpoint.last = some ⟨.claimant, some object.bytes, object.kind, object.intentDigest,
      object.contentHash⟩ ∧ e'.endpoint.side = .allocator := by
  obtain ⟨relay, plaintext, channel, advance, endpoint, -, -, -, hreceive, rfl⟩ :=
    openPeerObject_eq_ok.mp h
  obtain ⟨hside, hbytes⟩ := hsided
  have hreceive := Endpoint.receive_ok hreceive
  rw [hside, show Side.allocator.opposite = .claimant from rfl] at hreceive
  rcases hreceive with ⟨hagain, rfl⟩ | haccepts
  · simp only [Endpoint.exactRetransmission, Option.any_eq_true, Bool.and_eq_true,
      beq_iff_eq] at hagain
    obtain ⟨last, hlast, ⟨⟨⟨hsender, hkind⟩, hintent⟩, hhash⟩, hsame⟩ := hagain
    obtain ⟨bytes, hbytes⟩ := Option.isSome_iff_exists.mp (hbytes last hlast hsender)
    rw [hbytes, Option.all_some, beq_iff_eq] at hsame
    refine ⟨?_, hside⟩
    rw [hlast, ← hsender, ← hkind, ← hintent, ← hhash, ← hsame, ← hbytes]
  · obtain ⟨hlast, hkept, -⟩ := haccepts.kept
    exact ⟨hlast, hkept.trans hside⟩

theorem prepareOutbound_cached {object : Object} {frame : Frame} {e e' : Established V}
    (h : Established.prepareOutbound object e = .ok frame e') :
    e'.relay.cachedOutbound = some frame := by
  obtain ⟨-, ⟨hcached, -, rfl⟩ | ⟨-, -, endpoint, channel, relay, -, -, hcache, rfl⟩⟩ :=
    Established.prepareOutbound_eq_ok.mp h
  · exact hcached
  · obtain ⟨-, -, next, -, rfl⟩ := RelayState.cacheApplicationFrame_eq_ok.mp hcache
    rfl

/-- The state about to be sealed accounts for everything the checkpoint covers. -/
theorem Transition.contains {s s₁ : AllocatorSession V} {cause : Cause}
    {after : List AllocatorEffect} (h : Transition s cause s₁ after) (hsided : s.state.Sided) :
    ∀ effect ∈ after, s₁.state.Contains effect := by
  cases h with
  | @allocation carrier presence b token expiresAt _ _ hcarrier hnew =>
    simp only [List.mem_singleton, forall_eq]
    obtain ⟨hphase, rfl⟩ : b.phase = .allocated ∧ b.carrier = carrier := by
      unfold Bootstrap.new at hnew
      split_ifs at hnew
      obtain rfl := Except.ok.inj hnew
      exact ⟨rfl, rfl⟩
    exact .allocation hphase
  | @shared b b' scalar peerSeq sequence body frame outbound ack put _ _ _ _ hshare hack hput =>
    obtain ⟨relay, relay', state, haccept, hqueue, -, -, -, -, -, rfl⟩ := firstShare_eq_ok.mp hshare
    obtain ⟨-, next, hnext, rfl⟩ := RelayState.acceptPeerSequence_eq_ok.mp haccept
    obtain ⟨-, -, rfl, next', hnext', rfl⟩ := RelayState.queueBootstrapFrame_eq_ok.mp hqueue
    obtain ⟨-, rfl⟩ := ackFrame_eq_ok.mp hack
    obtain ⟨body, hbody, -, rfl⟩ := putFrame_eq_ok.mp hput
    simp only [List.mem_cons, List.not_mem_nil, or_false, forall_eq_or_imp, forall_eq]
    exact ⟨.bootstrapAck (.inl ((lt_of_checkedSucc hnext peerSeq).mpr (.inr rfl))),
      .bootstrapPut rfl (checkedPred_of_checkedSucc hnext') rfl hbody⟩
  | @shareAcknowledged b b' sequence next finished put _ _ hfinished hput =>
    obtain ⟨relay, b₁, relay', -, hprepare, hqueue, rfl⟩ := finishedNext_eq_ok.mp hfinished
    obtain ⟨-, -, rfl, next', hnext', rfl⟩ := RelayState.queueBootstrapFrame_eq_ok.mp hqueue
    obtain ⟨-, _, _, _, _, _, pending, -, -, -, -, -, -, rfl, rfl⟩ :=
      Bootstrap.prepareFinished_eq_ok.mp hprepare
    obtain ⟨body, hbody, -, rfl⟩ := putFrame_eq_ok.mp hput
    simp only [List.mem_singleton, forall_eq]
    exact .bootstrapPut rfl (checkedPred_of_checkedSucc hnext') rfl hbody
  | finishedAcknowledged => simp
  | @peerFinished b b' peerSeq _ frame ack _ _ _ hpeer hack =>
    obtain ⟨relay, haccept, -, -, -, -, rfl⟩ := peerFinished_eq_ok.mp hpeer
    obtain ⟨-, next, hnext, rfl⟩ := RelayState.acceptPeerSequence_eq_ok.mp haccept
    obtain ⟨-, rfl⟩ := ackFrame_eq_ok.mp hack
    simp only [List.mem_singleton, forall_eq]
    exact .bootstrapAck (.inl ((lt_of_checkedSucc hnext peerSeq).mpr (.inr rfl)))
  | @established _ b b' frame channel relay v ack _ _ harrived _ hconfirm =>
    obtain ⟨-, rfl, -⟩ := Bootstrap.confirm_eq_ok.mp hconfirm
    rcases harrived with ⟨rfl, -⟩ | ⟨peerSeq, body, peerFrame, effect, -, -, rfl, hack, hpeer⟩
    · simp only [Option.toList_none, List.nil_append, List.mem_singleton, forall_eq]
      exact .establishment
    · obtain ⟨relay, haccept, -, -, -, -, rfl⟩ := peerFinished_eq_ok.mp hpeer
      obtain ⟨-, next, hnext, rfl⟩ := RelayState.acceptPeerSequence_eq_ok.mp haccept
      obtain ⟨-, rfl⟩ := ackFrame_eq_ok.mp hack
      simp only [Option.toList_some, List.cons_append, List.nil_append, List.mem_cons,
        List.not_mem_nil, or_false, forall_eq_or_imp, forall_eq]
      exact ⟨.applicationAck ((lt_of_checkedSucc hnext peerSeq).mpr (.inr rfl)), .establishment⟩
  | @sent e e' object frame sequence put _ hprepare hsequence hput =>
    obtain ⟨body, hbody, -, rfl⟩ := putFrame_eq_ok.mp hput
    obtain ⟨hawait, -, hpred⟩ := RelayState.cachedApplicationSequence_eq_ok.mp hsequence
    simp only [List.mem_singleton, forall_eq]
    exact .applicationPut hawait hpred (prepareOutbound_cached hprepare) hbody
  | @received e e' object _ frame peerSeq ack hstate _ hopen hack =>
    rw [hstate] at hsided
    obtain ⟨hlast, -⟩ := openPeerObject_last hopen hsided
    obtain ⟨relay, plaintext, channel, advance, endpoint, haccept, -, -, -, rfl⟩ :=
      openPeerObject_eq_ok.mp hopen
    obtain ⟨-, next, hnext, rfl⟩ := RelayState.acceptPeerSequence_eq_ok.mp haccept
    obtain ⟨-, rfl⟩ := ackFrame_eq_ok.mp hack
    simp only [List.mem_cons, List.not_mem_nil, or_false, forall_eq_or_imp, forall_eq]
    exact ⟨.applicationAck ((lt_of_checkedSucc hnext peerSeq).mpr (.inr rfl)), .object hlast⟩
  | acknowledged => simp

/-- A transition brings no put and no acknowledgement of its own but those the
checkpoint covers. -/
theorem Transition.transfer {s s₁ : AllocatorSession V} {cause : Cause}
    {after : List AllocatorEffect} (h : Transition s cause s₁ after) (effect : AllocatorEffect)
    (htransfer : effect.Transfer) (hcontains : s₁.state.Contains effect) : effect ∈ after ∨ s.state.Contains effect := by
  cases h with
  | @allocation carrier presence b token expiresAt _ _ hcarrier hnew =>
    obtain ⟨hrelay, hpeer⟩ : b.relay = RelayState.new token ∧ b.peerCpace = none := by
      unfold Bootstrap.new at hnew
      split_ifs at hnew
      obtain rfl := Except.ok.inj hnew
      exact ⟨rfl, rfl⟩
    cases hcontains with
    | allocation => exact htransfer.elim
    | bootstrapPut hawait => simp [hrelay, RelayState.new] at hawait
    | bootstrapAck hack => simp [hrelay, hpeer, RelayState.new] at hack
  | @shared b b' scalar peerSeq sequence _ frame outbound ack put hstate _ _ _ hshare hack hput =>
    obtain ⟨relay, relay', state, haccept, hqueue, -, -, -, -, -, rfl⟩ := firstShare_eq_ok.mp hshare
    obtain ⟨rfl, next, hnext, rfl⟩ := RelayState.acceptPeerSequence_eq_ok.mp haccept
    obtain ⟨-, -, rfl, next', hnext', rfl⟩ := RelayState.queueBootstrapFrame_eq_ok.mp hqueue
    obtain ⟨-, rfl⟩ := ackFrame_eq_ok.mp hack
    obtain ⟨body, hbody, -, rfl⟩ := putFrame_eq_ok.mp hput
    rw [hstate]
    cases hcontains with
    | allocation => exact htransfer.elim
    | @bootstrapPut _ m f encoded _ hpred hcached hencode =>
      obtain rfl := Option.some.inj ((checkedPred_of_checkedSucc hnext').symm.trans hpred)
      obtain rfl := Option.some.inj hcached
      obtain rfl := Except.ok.inj (hbody.symm.trans hencode)
      simp
    | @bootstrapAck _ m hm =>
      have hm : m = b.relay.nextPeerSequence ∨ m < b.relay.nextPeerSequence := by
        rcases hm with hm | ⟨rfl, -⟩
        · exact ((lt_of_checkedSucc hnext m).mp hm).symm
        · by_cases hzero : b.relay.nextPeerSequence = 0
          · exact .inl hzero.symm
          · exact .inr (UInt8.pos_iff_ne_zero.mpr hzero)
      rcases hm with rfl | hm
      · simp
      · exact .inr (.bootstrapAck (.inl hm))
  | @shareAcknowledged b b' sequence next finished put hstate _ hfinished hput =>
    obtain ⟨relay, b₁, relay', hacknowledge, hprepare, hqueue, rfl⟩ :=
      finishedNext_eq_ok.mp hfinished
    obtain ⟨-, -, -, rfl⟩ := RelayState.acknowledgeBootstrapFrame_eq_ok.mp hacknowledge
    obtain ⟨-, -, rfl, next', hnext', rfl⟩ := RelayState.queueBootstrapFrame_eq_ok.mp hqueue
    obtain ⟨-, _, _, _, _, _, pending, hpeer, -, -, -, -, -, rfl, rfl⟩ :=
      Bootstrap.prepareFinished_eq_ok.mp hprepare
    obtain ⟨body, hbody, -, rfl⟩ := putFrame_eq_ok.mp hput
    rw [hstate]
    cases hcontains with
    | allocation => exact htransfer.elim
    | @bootstrapPut _ m f encoded _ hpred hcached hencode =>
      obtain rfl := Option.some.inj ((checkedPred_of_checkedSucc hnext').symm.trans hpred)
      obtain rfl := Option.some.inj hcached
      obtain rfl := Except.ok.inj (hbody.symm.trans hencode)
      simp
    | bootstrapAck hm => exact .inr (.bootstrapAck hm)
  | @finishedAcknowledged b b' sequence hstate _ hack =>
    obtain ⟨relay, hacknowledge, -, rfl⟩ := finishedAcknowledged_eq_ok.mp hack
    obtain ⟨-, -, -, rfl⟩ := RelayState.acknowledgeBootstrapFrame_eq_ok.mp hacknowledge
    rw [hstate]
    cases hcontains with
    | allocation => exact htransfer.elim
    | bootstrapPut hawait => simp at hawait
    | bootstrapAck hm => exact .inr (.bootstrapAck hm)
  | @peerFinished b b' peerSeq _ frame ack hstate _ _ hpeer hack =>
    obtain ⟨relay, haccept, -, -, -, -, rfl⟩ := peerFinished_eq_ok.mp hpeer
    obtain ⟨rfl, next, hnext, rfl⟩ := RelayState.acceptPeerSequence_eq_ok.mp haccept
    obtain ⟨-, rfl⟩ := ackFrame_eq_ok.mp hack
    rw [hstate]
    cases hcontains with
    | allocation => exact htransfer.elim
    | bootstrapPut hawait hpred hcached hencode =>
      exact .inr (.bootstrapPut hawait hpred hcached hencode)
    | @bootstrapAck _ m hm =>
      rcases hm with hm | hm
      · rcases (lt_of_checkedSucc hnext m).mp hm with hm | rfl
        · exact .inr (.bootstrapAck (.inl hm))
        · simp
      · exact .inr (.bootstrapAck (.inr hm))
  | @established _ b b' frame channel relay v ack hstate _ harrived _ hconfirm hawaiting =>
    obtain ⟨-, rfl, -⟩ := Bootstrap.confirm_eq_ok.mp hconfirm
    rw [hstate]
    cases hcontains with
    | establishment => exact htransfer.elim
    | object => exact htransfer.elim
    | applicationPut hawait => simp [hawaiting] at hawait
    | @applicationAck _ m hm =>
      rcases harrived with ⟨rfl, sequence, -, hack⟩ |
        ⟨peerSeq, body, peerFrame, effect, -, -, rfl, hack, hpeer⟩
      · obtain ⟨relay, hacknowledge, -, rfl⟩ := finishedAcknowledged_eq_ok.mp hack
        obtain ⟨-, -, -, rfl⟩ := RelayState.acknowledgeBootstrapFrame_eq_ok.mp hacknowledge
        exact .inr (.bootstrapAck (.inl hm))
      · obtain ⟨relay, haccept, -, -, -, -, rfl⟩ := peerFinished_eq_ok.mp hpeer
        obtain ⟨rfl, next, hnext, rfl⟩ := RelayState.acceptPeerSequence_eq_ok.mp haccept
        obtain ⟨-, rfl⟩ := ackFrame_eq_ok.mp hack
        rcases (lt_of_checkedSucc hnext m).mp hm with hm | rfl
        · exact .inr (.bootstrapAck (.inl hm))
        · simp
  | @sent e e' object frame sequence put hstate hprepare hsequence hput =>
    obtain ⟨body, hbody, -, rfl⟩ := putFrame_eq_ok.mp hput
    obtain ⟨-, -, hsequence⟩ := RelayState.cachedApplicationSequence_eq_ok.mp hsequence
    have hframe := prepareOutbound_cached hprepare
    have hpeer : e'.relay.nextPeerSequence = e.relay.nextPeerSequence := by
      obtain ⟨-, ⟨-, -, rfl⟩ | ⟨-, -, endpoint, channel, relay, -, -, hcache, rfl⟩⟩ :=
        Established.prepareOutbound_eq_ok.mp hprepare
      · rfl
      · obtain ⟨-, -, next, -, rfl⟩ := RelayState.cacheApplicationFrame_eq_ok.mp hcache
        rfl
    rw [hstate]
    cases hcontains with
    | establishment => exact htransfer.elim
    | object => exact htransfer.elim
    | applicationPut _ hpred hcached hencode =>
      obtain rfl := Option.some.inj (hsequence.symm.trans hpred)
      obtain rfl := Option.some.inj (hframe.symm.trans hcached)
      obtain rfl := Except.ok.inj (hbody.symm.trans hencode)
      simp
    | applicationAck hm => exact .inr (.applicationAck (hpeer ▸ hm))
  | @received e e' object _ frame peerSeq ack hstate _ hopen hack =>
    obtain ⟨relay, plaintext, channel, advance, endpoint, haccept, -, -, -, rfl⟩ :=
      openPeerObject_eq_ok.mp hopen
    obtain ⟨rfl, next, hnext, rfl⟩ := RelayState.acceptPeerSequence_eq_ok.mp haccept
    obtain ⟨-, rfl⟩ := ackFrame_eq_ok.mp hack
    rw [hstate]
    cases hcontains with
    | establishment => exact htransfer.elim
    | object => exact htransfer.elim
    | applicationPut hawait hpred hcached hencode =>
      exact .inr (.applicationPut hawait hpred hcached hencode)
    | @applicationAck _ m hm =>
      rcases (lt_of_checkedSucc hnext m).mp hm with hm | rfl
      · exact .inr (.applicationAck hm)
      · simp
  | @acknowledged e relay sequence hstate hack =>
    obtain ⟨-, rfl⟩ := RelayState.acknowledgeApplicationFrame_eq_ok.mp hack
    rw [hstate]
    cases hcontains with
    | establishment => exact htransfer.elim
    | object => exact htransfer.elim
    | applicationPut hawait => simp at hawait
    | applicationAck hm => exact .inr (.applicationAck hm)

theorem Transition.generation {s s₁ : AllocatorSession V} {cause : Cause}
    {after : List AllocatorEffect} (h : Transition s cause s₁ after) :
    s.state ≠ .terminal ∧ s₁.state.generation = s.state.generation := by
  cases h with
  | @allocation carrier presence b token expiresAt hstate _ _ hnew =>
    have hzero : b.checkpointGeneration = 0 := by
      unfold Bootstrap.new at hnew
      split_ifs at hnew
      obtain rfl := Except.ok.inj hnew
      rfl
    exact ⟨by simp [hstate], by rw [hstate]; exact hzero⟩
  | shared hstate _ _ _ hshare =>
    obtain ⟨_, _, _, -, -, -, -, -, -, -, rfl⟩ := firstShare_eq_ok.mp hshare
    exact ⟨by simp [hstate], by rw [hstate]; rfl⟩
  | shareAcknowledged hstate _ hfinished =>
    obtain ⟨_, _, _, -, hprepare, -, rfl⟩ := finishedNext_eq_ok.mp hfinished
    obtain ⟨-, _, _, _, _, _, _, -, -, -, -, -, -, -, rfl⟩ :=
      Bootstrap.prepareFinished_eq_ok.mp hprepare
    exact ⟨by simp [hstate], by rw [hstate]; rfl⟩
  | finishedAcknowledged hstate _ hack =>
    obtain ⟨_, -, -, rfl⟩ := finishedAcknowledged_eq_ok.mp hack
    exact ⟨by simp [hstate], by rw [hstate]; rfl⟩
  | peerFinished hstate _ _ hpeer =>
    obtain ⟨_, -, -, -, -, -, rfl⟩ := peerFinished_eq_ok.mp hpeer
    exact ⟨by simp [hstate], by rw [hstate]; rfl⟩
  | established hstate _ harrived =>
    refine ⟨by simp [hstate], ?_⟩
    rw [hstate]
    rcases harrived with ⟨-, _, -, hack⟩ | ⟨_, _, _, _, -, -, -, -, hpeer⟩
    · obtain ⟨_, -, -, rfl⟩ := finishedAcknowledged_eq_ok.mp hack
      rfl
    · obtain ⟨_, -, -, -, -, -, rfl⟩ := peerFinished_eq_ok.mp hpeer
      rfl
  | sent hstate hprepare =>
    refine ⟨by simp [hstate], ?_⟩
    rw [hstate]
    obtain ⟨-, ⟨-, -, rfl⟩ | ⟨-, -, _, _, _, hsend, -, -, rfl⟩⟩ :=
      Established.prepareOutbound_eq_ok.mp hprepare
    · rfl
    · exact (Endpoint.send_advanced hsend).kept.2.2.2.1
  | received hstate _ hopen =>
    refine ⟨by simp [hstate], ?_⟩
    rw [hstate]
    obtain ⟨_, _, _, _, _, -, -, -, hreceive, rfl⟩ := openPeerObject_eq_ok.mp hopen
    rcases Endpoint.receive_ok hreceive with ⟨-, rfl⟩ | haccepts
    · rfl
    · exact haccepts.kept.2.2.2.1
  | acknowledged hstate => exact ⟨by simp [hstate], by rw [hstate]; rfl⟩

theorem Transition.sided {s s₁ : AllocatorSession V} {cause : Cause}
    {after : List AllocatorEffect} (h : Transition s cause s₁ after) (hsided : s.state.Sided) : s₁.state.Sided := by
  cases h with
  | allocation | shared | shareAcknowledged | finishedAcknowledged | peerFinished => trivial
  | established => exact ⟨rfl, by simp [Endpoint.new]⟩
  | sent hstate hprepare =>
    rw [hstate] at hsided
    obtain ⟨-, ⟨-, -, rfl⟩ | ⟨-, -, _, _, _, hsend, -, -, rfl⟩⟩ :=
      Established.prepareOutbound_eq_ok.mp hprepare
    · exact hsided
    · obtain ⟨hlast, hside, -⟩ := (Endpoint.send_advanced hsend).kept
      exact ⟨hside.trans hsided.1, by simp [hlast]⟩
  | received hstate _ hopen =>
    rw [hstate] at hsided
    obtain ⟨hlast, hside⟩ := openPeerObject_last hopen hsided
    exact ⟨hside, by simp [hlast]⟩
  | acknowledged hstate =>
    rw [hstate] at hsided
    exact hsided

/-! ### Seals -/

theorem Seals.generation {key : Octets 32} {now generation : UInt64} {nonce : Octets 12}
    {checkpoint carrier : Bytes} {state state' : AllocatorState V}
    (h : Seals key now nonce state generation checkpoint carrier state') :
    generation = saturatingSucc state.generation ∧ state'.generation = generation ∧
      state' ≠ .terminal := by
  cases h with
  | bootstrap hseal =>
    obtain ⟨-, -, -, rfl⟩ := Bootstrap.sealCheckpoint_eq_ok.mp hseal
    exact ⟨rfl, rfl, by simp⟩
  | established hseal =>
    obtain ⟨-, -, -, -, rfl⟩ := Endpoint.sealCheckpoint_eq_ok.mp hseal
    exact ⟨rfl, rfl, by simp⟩

theorem Seals.contains {key : Octets 32} {now generation : UInt64} {nonce : Octets 12}
    {checkpoint carrier : Bytes} {state state' : AllocatorState V}
    (h : Seals key now nonce state generation checkpoint carrier state')
    (effect : AllocatorEffect) : state'.Contains effect ↔ state.Contains effect := by
  cases h with
  | @bootstrap b b' _ hseal =>
    obtain ⟨-, -, -, rfl⟩ := Bootstrap.sealCheckpoint_eq_ok.mp hseal
    constructor
    · generalize hb : b.stamped (saturatingSucc b.checkpointGeneration) nonce = b'
      intro hcontains
      cases hcontains <;> subst hb
      · exact .allocation ‹_›
      · exact .bootstrapPut ‹_› ‹_› ‹_› ‹_›
      · exact .bootstrapAck ‹_›
    · intro hcontains
      cases hcontains
      · exact .allocation (b := b.stamped _ nonce) ‹_›
      · exact .bootstrapPut (b := b.stamped _ nonce) ‹_› ‹_› ‹_› ‹_›
      · exact .bootstrapAck (b := b.stamped _ nonce) ‹_›
  | @established e endpoint _ hseal =>
    obtain ⟨-, -, -, -, rfl⟩ := Endpoint.sealCheckpoint_eq_ok.mp hseal
    constructor
    · generalize he : ({ e with endpoint := e.endpoint.stamped _ nonce } : Established V) = e'
      intro hcontains
      cases hcontains <;> subst he
      · exact .establishment
      · exact .object ‹_›
      · exact .applicationPut ‹_› ‹_› ‹_› ‹_›
      · exact .applicationAck ‹_›
    · intro hcontains
      cases hcontains
      · exact .establishment (e := { e with endpoint := e.endpoint.stamped _ nonce })
      · exact .object (e := { e with endpoint := e.endpoint.stamped _ nonce }) ‹_›
      · exact .applicationPut (e := { e with endpoint := e.endpoint.stamped _ nonce }) ‹_› ‹_› ‹_› ‹_›
      · exact .applicationAck (e := { e with endpoint := e.endpoint.stamped _ nonce }) ‹_›

theorem Seals.sided {key : Octets 32} {now generation : UInt64} {nonce : Octets 12}
    {checkpoint carrier : Bytes} {state state' : AllocatorState V}
    (h : Seals key now nonce state generation checkpoint carrier state') (hsided : state.Sided) :
    state'.Sided := by
  cases h with
  | bootstrap => trivial
  | established hseal =>
    obtain ⟨-, -, -, -, rfl⟩ := Endpoint.sealCheckpoint_eq_ok.mp hseal
    exact hsided

/-! ### Direct releases -/

omit [BodyVerifier V] in
theorem reopenEffects_contained {s : AllocatorSession V} {effects : List AllocatorEffect}
    (h : s.reopenEffects = .ok effects) : ∀ effect ∈ effects, effect.Announces →
      effect.Transfer ∧ s.state.Contains effect := by
  simp only [reopenEffects, Calls.except_bind_eq_ok, Prod.exists] at h
  obtain ⟨carrier, relay, cached, hcached, opening, hopening, h⟩ := h
  obtain ⟨-, rfl⟩ := relayMessage_eq_ok.mp hopening
  cases cached with
  | none =>
    obtain rfl := Except.ok.inj h
    simp [AllocatorEffect.Announces, AllocatorEffect.Transfer]
  | some cached =>
    obtain ⟨frame, sequence⟩ := cached
    simp only [Calls.except_bind_eq_ok, Except.ok.injEq] at h
    obtain ⟨put, hput, rfl⟩ := h
    obtain ⟨body, hbody, -, rfl⟩ := putFrame_eq_ok.mp hput
    simp only [List.mem_cons, List.not_mem_nil, or_false, forall_eq_or_imp, forall_eq]
    refine ⟨fun hannounces => hannounces.elim, fun _ => ⟨trivial, ?_⟩⟩
    cases hstate : s.state with
    | bootstrap b =>
      simp only [hstate] at hcached
      cases houtbound : b.cachedOutbound with
      | none => simp [houtbound] at hcached
      | some f =>
        simp only [houtbound, Calls.except_bind_eq_ok, Except.ok.injEq, Prod.mk.injEq,
          Option.map_eq_some_iff] at hcached
        obtain ⟨found, hfound, -, -, n, rfl, rfl, rfl⟩ := hcached
        obtain ⟨-, ⟨-, hnone⟩ | ⟨hawait, n', hpred, hn⟩⟩ :=
          RelayState.cachedBootstrapSequence_eq_ok.mp hfound
        · simp at hnone
        · obtain rfl := Option.some.inj hn
          exact .bootstrapPut hawait hpred houtbound hbody
    | established e =>
      simp only [hstate] at hcached
      cases houtbound : e.relay.cachedOutbound with
      | none => simp [houtbound] at hcached
      | some f =>
        simp only [houtbound, Calls.except_bind_eq_ok, Except.ok.injEq, Prod.mk.injEq,
          Option.some.injEq] at hcached
        obtain ⟨n, hfound, -, -, rfl, rfl⟩ := hcached
        obtain ⟨hawait, -, hpred⟩ := RelayState.cachedApplicationSequence_eq_ok.mp hfound
        exact .applicationPut hawait hpred houtbound hbody
    | awaitWelcome => simp [hstate] at hcached
    | awaitAllocation => simp [hstate] at hcached
    | terminal => simp [hstate] at hcached

omit [BodyVerifier V] in
theorem repeatedShare_contained {b : Bootstrap} {frame : Frame} {now : UInt64}
    {effects : List AllocatorEffect} (h : repeatedShare b 0 frame now = .ok effects)
    (hpeer : b.peerCpace.isSome = true) : ∀ effect ∈ effects,
      effect.Transfer ∧ (AllocatorState.bootstrap b : AllocatorState V).Contains effect := by
  simp only [repeatedShare, Calls.guard_eq_ok, Calls.except_bind_eq_ok] at h
  obtain ⟨-, -, ack, hack, sequence, hsequence, h⟩ := h
  obtain ⟨-, rfl⟩ := ackFrame_eq_ok.mp hack
  have hcontained : (AllocatorState.bootstrap b : AllocatorState V).Contains (.send (.ack 0)) :=
    .bootstrapAck (.inr ⟨rfl, hpeer⟩)
  cases sequence with
  | none =>
    obtain rfl := Except.ok.inj h
    simpa using ⟨trivial, hcontained⟩
  | some n =>
    cases hcached : b.cachedOutbound with
    | none => simp [hcached] at h
    | some cached =>
      simp only [hcached, Calls.except_bind_eq_ok, Except.ok.injEq] at h
      obtain ⟨put, hput, rfl⟩ := h
      obtain ⟨body, hbody, -, rfl⟩ := putFrame_eq_ok.mp hput
      obtain ⟨-, ⟨-, hnone⟩ | ⟨hawait, n', hpred, hn⟩⟩ :=
        RelayState.cachedBootstrapSequence_eq_ok.mp hsequence
      · simp at hnone
      · obtain rfl := Option.some.inj hn
        simp only [List.mem_cons, List.not_mem_nil, or_false, forall_eq_or_imp, forall_eq]
        exact ⟨⟨trivial, hcontained⟩, trivial, .bootstrapPut hawait hpred hcached hbody⟩

omit [BodyVerifier V] in
/-- What is released without a checkpoint was in the state before. -/
theorem Direct.contained {s s' : AllocatorSession V} {effects : List AllocatorEffect}
    (h : Direct s effects s') : ∀ effect ∈ effects, effect.Announces →
      effect.Transfer ∧ s.state.Contains effect := by
  cases h with
  | silent => simp
  | reopened _ hreopen => exact reopenEffects_contained hreopen
  | requested => simp [AllocatorEffect.Announces, AllocatorEffect.Transfer]
  | repeated hstate hpeer hrepeat =>
    intro effect heffect _
    rw [hstate]
    exact repeatedShare_contained hrepeat hpeer effect heffect
  | closed => simp [AllocatorEffect.Announces, AllocatorEffect.Transfer]

omit [BodyVerifier V] in
theorem Direct.no_checkpoint {s s' : AllocatorSession V} {effects : List AllocatorEffect}
    (h : Direct s effects s') : effects.filterMap AllocatorEffect.generation? = [] := by
  rw [List.filterMap_eq_nil_iff]
  intro effect heffect
  cases h with
  | silent => simp at heffect
  | reopened _ hreopen =>
    simp only [reopenEffects, Calls.except_bind_eq_ok, Prod.exists] at hreopen
    obtain ⟨_, _, cached, -, _, -, h⟩ := hreopen
    cases cached with
    | none =>
      obtain rfl := Except.ok.inj h
      obtain rfl := List.mem_singleton.mp heffect
      rfl
    | some cached =>
      simp only [Calls.except_bind_eq_ok, Except.ok.injEq] at h
      obtain ⟨put, hput, rfl⟩ := h
      obtain ⟨_, -, -, rfl⟩ := putFrame_eq_ok.mp hput
      simp only [List.mem_cons, List.not_mem_nil, or_false] at heffect
      rcases heffect with rfl | rfl <;> rfl
  | requested =>
    obtain rfl := List.mem_singleton.mp heffect
    rfl
  | @repeated b _ _ _ hstate hpeer hrepeat =>
    obtain ⟨htransfer, -⟩ := repeatedShare_contained (V := V) hrepeat hpeer effect heffect
    cases effect <;> first | rfl | exact htransfer.elim
  | closed =>
    obtain rfl := List.mem_singleton.mp heffect
    rfl

omit [BodyVerifier V] in
/-- A direct release keeps the state or leaves one that accounts for nothing. -/
theorem Direct.keeps {s s' : AllocatorSession V} {effects : List AllocatorEffect}
    (h : Direct s effects s') :
    (s'.state = s.state ∨ s.state = .awaitWelcome ∧ s'.state = .awaitAllocation ∨
      s'.state = .terminal) ∧
      s'.persistenceGate = s.persistenceGate ∧
      (s.afterPersist = [] → s'.afterPersist = []) := by
  cases h with
  | silent => exact ⟨.inl rfl, rfl, id⟩
  | reopened => exact ⟨.inl rfl, rfl, id⟩
  | requested hstate => exact ⟨.inr (.inl ⟨hstate, rfl⟩), rfl, id⟩
  | repeated => exact ⟨.inl rfl, rfl, id⟩
  | closed => exact ⟨.inr (.inr rfl), rfl, fun _ => rfl⟩

/-! ### Runs -/

/-- The generations of the checkpoints a list of calls returned. -/
def generations (s : AllocatorSession V) (calls : List AllocatorCall) : List UInt64 :=
  (Runs.released call s calls).filterMap AllocatorEffect.generation?

/-- The last checkpoint of a run: the call that returned it alone, no other since,
and the state it was sealed from. -/
def LastCheckpoint (s : AllocatorSession V) (calls : List AllocatorCall) (generation : UInt64)
    (source : AllocatorState V) : Prop :=
  ∃ earlier c later checkpoint carrier now nonce s',
    calls = earlier ++ c :: later ∧
    call c (Runs.after call s earlier) = .ok [.checkpoint generation checkpoint carrier] s' ∧
    generations s' later = [] ∧
    Seals s'.wrappingKey now nonce source generation checkpoint carrier s'.state

/-- What holds along every run: the effects held back belong to the last sealed
state, and every put or acknowledgement the state accounts for is out, was there
at the start, or is held back. -/
structure Barred (s₀ : AllocatorSession V) (calls : List AllocatorCall) (s : AllocatorSession V) :
    Prop where
  sided : s.state.Sided
  idle : s.persistenceGate = none → s.afterPersist = []
  accounted : ∀ effect, effect.Transfer → s.state.Contains effect →
    effect ∈ Runs.released call s₀ calls ∨ s₀.state.Contains effect ∨ effect ∈ s.afterPersist
  held : s.afterPersist ≠ [] → ∃ generation source, s.persistenceGate = some generation ∧
    LastCheckpoint s₀ calls generation source ∧ ∀ effect ∈ s.afterPersist, source.Contains effect
  counted : List.IsChain (fun g g' => g' = saturatingSucc g)
    (s₀.state.generation :: generations s₀ calls)
  current : s.state = .terminal ∨
    (s₀.state.generation :: generations s₀ calls).getLast? = some s.state.generation

theorem generations_concat (s : AllocatorSession V) (calls : List AllocatorCall)
    (c : AllocatorCall) : generations s (calls ++ [c]) = generations s calls ++
      (Runs.effects (call c (Runs.after call s calls))).filterMap AllocatorEffect.generation? := by
  rw [generations, Runs.released_concat, List.filterMap_append, generations]

/-- Calls that return no checkpoint leave the last one in place. -/
theorem LastCheckpoint.concat {s : AllocatorSession V} {calls : List AllocatorCall}
    {generation : UInt64} {source : AllocatorState V} (h : LastCheckpoint s calls generation source)
    {c : AllocatorCall}
    (hnone : (Runs.effects (call c (Runs.after call s calls))).filterMap
      AllocatorEffect.generation? = []) :
    LastCheckpoint s (calls ++ [c]) generation source := by
  obtain ⟨earlier, c', later, checkpoint, carrier, now, nonce, s', rfl, hcall, hlater, hseals⟩ := h
  refine ⟨earlier, c', later ++ [c], checkpoint, carrier, now, nonce, s', by simp, hcall, ?_, hseals⟩
  rw [Runs.after_append, Runs.after_cons, hcall] at hnone
  rw [generations_concat, hlater, List.nil_append]
  exact hnone

theorem Barred.begins {s : AllocatorSession V} (h : Begins s) : Barred s [] s := by
  have hfresh : s.state.Sided ∧ s.afterPersist = [] := by
    cases h with
    | new hnew =>
      simp only [AllocatorSession.new, Calls.guard_eq_ok, Calls.except_bind_eq_ok] at hnew
      obtain ⟨-, -, _, -, hnew⟩ := hnew
      obtain rfl := Except.ok.inj hnew
      exact ⟨trivial, rfl⟩
    | restored hrestore =>
      unfold restore at hrestore
      split at hrestore
      · obtain ⟨-, hrestore⟩ := Calls.guard_eq_ok.mp hrestore
        obtain rfl := Except.ok.inj hrestore
        exact ⟨trivial, rfl⟩
      · simp only [Calls.except_bind_eq_ok] at hrestore
        obtain ⟨e, he, hrestore⟩ := hrestore
        obtain rfl := Except.ok.inj hrestore
        have hreopened := Endpoint.restoreCheckpoint_eq_ok he
        refine ⟨⟨hreopened.side, fun last hlast hsender => ?_⟩, rfl⟩
        have hcomplete := Established.complete_iff.mp hreopened.complete last hlast
        rw [hreopened.side] at hcomplete
        simpa [missingBytes, hsender, Option.isSome_iff_ne_none] using hcomplete
  obtain ⟨hsided, hempty⟩ := hfresh
  exact ⟨hsided, fun _ => hempty, fun effect _ hcontains => .inr (.inl hcontains),
    fun hne => absurd hempty hne, .singleton _, .inr rfl⟩

section Step

variable {s₀ : AllocatorSession V} {calls : List AllocatorCall} {c : AllocatorCall}

/-- A call that fails and changes nothing. -/
theorem Barred.unchanged (h : Barred s₀ calls (Runs.after call s₀ calls))
    (hnone : Runs.effects (call c (Runs.after call s₀ calls)) = []) :
    Barred s₀ (calls ++ [c]) (Runs.after call s₀ calls) := by
  have hgenerations : generations s₀ (calls ++ [c]) = generations s₀ calls := by
    rw [generations_concat, hnone]
    simp
  refine ⟨h.sided, h.idle, ?_, ?_, hgenerations ▸ h.counted, hgenerations ▸ h.current⟩
  · rw [Runs.released_concat, hnone, List.append_nil]
    exact h.accounted
  · intro hne
    obtain ⟨generation, source, hgate, hlast, hcontains⟩ := h.held hne
    exact ⟨generation, source, hgate, hlast.concat (by rw [hnone]; rfl), hcontains⟩

/-- A call that leaves nothing held back and seals nothing. -/
theorem Barred.emptied {s' : AllocatorSession V} (h : Barred s₀ calls (Runs.after call s₀ calls))
    (hnone : (Runs.effects (call c (Runs.after call s₀ calls))).filterMap
      AllocatorEffect.generation? = [])
    (hstate : s'.state = (Runs.after call s₀ calls).state ∨
      (Runs.after call s₀ calls).state = .awaitWelcome ∧ s'.state = .awaitAllocation ∨
      s'.state = .terminal)
    (hempty : s'.afterPersist = [])
    (hout : s'.state = .terminal ∨ ∀ effect ∈ (Runs.after call s₀ calls).afterPersist,
      effect ∈ Runs.effects (call c (Runs.after call s₀ calls))) :
    Barred s₀ (calls ++ [c]) s' := by
  have hgenerations : generations s₀ (calls ++ [c]) = generations s₀ calls := by
    rw [generations_concat, hnone, List.append_nil]
  refine ⟨?_, fun _ => hempty, ?_, fun hne => absurd hempty hne, hgenerations ▸ h.counted, ?_⟩
  · rcases hstate with hstate | ⟨-, hstate⟩ | hstate
    · exact hstate ▸ h.sided
    · rw [hstate]
      trivial
    · rw [hstate]
      trivial
  · intro effect htransfer hcontains
    have hsame : s'.state = (Runs.after call s₀ calls).state ∧ s'.state ≠ .terminal := by
      rcases hstate with hstate | ⟨-, hstate⟩ | hstate
      · refine ⟨hstate, fun hterminal => ?_⟩
        rw [hterminal] at hcontains
        cases hcontains
      · rw [hstate] at hcontains
        cases hcontains
      · rw [hstate] at hcontains
        cases hcontains
    rw [Runs.released_concat, List.mem_append]
    rcases h.accounted effect htransfer (hsame.1 ▸ hcontains) with hreleased | hstart | hheld
    · exact .inl (.inl hreleased)
    · exact .inr (.inl hstart)
    · exact .inl (.inr ((hout.resolve_left hsame.2) effect hheld))
  · rw [hgenerations]
    rcases hstate with hstate | ⟨hbefore, hstate⟩ | hstate
    · exact hstate ▸ h.current
    · right
      have hcurrent := h.current.resolve_left (by simp [hbefore])
      rw [hcurrent, hbefore, hstate]
      rfl
    · exact .inl hstate

/-- A sealed move holds its effects back behind the new checkpoint. -/
theorem Barred.moved {s₁ s' : AllocatorSession V} {after effects : List AllocatorEffect}
    {cause : Cause} {now : UInt64} {nonce : Octets 12}
    (h : Barred s₀ calls (Runs.after call s₀ calls))
    (hcall : call c (Runs.after call s₀ calls) = .ok effects s')
    (hgate : (Runs.after call s₀ calls).persistenceGate = none)
    (htransition : Transition (Runs.after call s₀ calls) cause s₁ after)
    (hsealed : Sealed s₁ after now nonce effects s') : Barred s₀ (calls ++ [c]) s' := by
  obtain ⟨generation, checkpoint, carrier, state', hseals, rfl, rfl⟩ := hsealed
  obtain ⟨hnext, hcurrent, hopen⟩ := hseals.generation
  obtain ⟨hrunning, hkept⟩ := htransition.generation
  have hcontains := htransition.contains h.sided
  have hgenerations : generations s₀ (calls ++ [c]) = generations s₀ calls ++ [generation] := by
    rw [generations_concat, hcall]
    rfl
  refine ⟨hseals.sided (htransition.sided h.sided), (by intros; contradiction), ?_, fun _ => ?_,
    ?_, .inr ?_⟩
  · intro effect htransfer heffect
    rw [Runs.released_concat, List.mem_append]
    rcases htransition.transfer effect htransfer ((hseals.contains effect).mp heffect) with hafter | hbefore
    · exact .inr (.inr hafter)
    · rcases h.accounted effect htransfer hbefore with hreleased | hstart | hheld
      · exact .inl (.inl hreleased)
      · exact .inr (.inl hstart)
      · rw [h.idle hgate] at hheld
        simp at hheld
  · exact ⟨generation, s₁.state, rfl, ⟨calls, c, [], checkpoint, carrier, now, nonce, _, rfl, hcall,
      rfl, hseals⟩, hcontains⟩
  · rw [hgenerations, ← List.cons_append, List.isChain_append]
    refine ⟨h.counted, .singleton _, ?_⟩
    rintro g hg g' hg'
    rw [h.current.resolve_left hrunning] at hg
    obtain rfl := Option.some.inj hg
    obtain rfl := Option.some.inj hg'
    rw [hnext, hkept]
  · rw [hgenerations, ← List.cons_append, List.getLast?_concat]
    exact congrArg some hcurrent.symm

theorem Barred.step (h : Barred s₀ calls (Runs.after call s₀ calls)) :
    Barred s₀ (calls ++ [c]) (Call.after (call c (Runs.after call s₀ calls))) := by
  cases hcall : call c (Runs.after call s₀ calls) with
  | error e s' =>
    rcases call_error hcall with rfl | ⟨s'', rfl⟩
    · exact h.unchanged (by rw [hcall]; rfl)
    · exact h.emptied (by rw [hcall]; rfl) (.inr (.inr rfl)) rfl (.inl rfl)
  | ok effects s' =>
    cases call_ok hcall with
    | bound _ hgate heffects hs' =>
      subst hs'
      refine h.emptied (by rw [hcall, heffects]; rfl) (.inl rfl) (h.idle hgate) (.inr ?_)
      rw [h.idle hgate]
      simp
    | persisted _ _ heffects hs' =>
      subst hs' heffects
      refine h.emptied ?_ (.inl rfl) rfl (.inr ?_)
      · rw [hcall, Runs.effects_ok, List.filterMap_eq_nil_iff]
        intro effect heffect
        obtain ⟨_, source, -, -, hcontains⟩ := h.held (List.ne_nil_of_mem heffect)
        exact (hcontains effect heffect).no_checkpoint
      · rw [hcall, Runs.effects_ok]
        exact fun _ heffect => heffect
    | applied _ hgate houtcome =>
      cases houtcome with
      | direct hdirect =>
        obtain ⟨hstate, -, hempty⟩ := hdirect.keeps
        refine h.emptied (by rw [hcall]; exact hdirect.no_checkpoint) hstate
          (hempty (h.idle hgate)) (.inr ?_)
        rw [h.idle hgate]
        simp
      | moved htransition hsealed => exact h.moved hcall hgate htransition hsealed

end Step

theorem barred (s₀ : AllocatorSession V) (h : Begins s₀) (calls : List AllocatorCall) :
    Barred s₀ calls (Runs.after call s₀ calls) :=
  Runs.invariant call (Barred.begins h) (fun _ _ hcalls => hcalls.step) calls

/-- While a generation is unconfirmed, every call but its confirmation fails and
changes nothing. -/
theorem gated_call {s : AllocatorSession V} {generation : UInt64} {c : AllocatorCall}
    (hgate : s.persistenceGate = some generation) (hc : c ≠ .checkpointPersisted generation) :
    ∃ e, call c s = .error e s := by
  cases c with
  | start =>
    cases hstart : s.start with
    | ok message =>
      obtain ⟨-, hnone⟩ := start_eq_ok hstart
      simp [hgate] at hnone
    | error e =>
      refine ⟨e, ?_⟩
      simp only [call]
      rw [Call.run_bind (Call.run_get s), hstart]
      rfl
  | receive input now nonce =>
    refine ⟨.phase, ?_⟩
    simp only [call, receive]
    rw [Call.run_bind (Call.run_get s), hgate]
    rfl
  | checkpointPersisted g =>
    refine ⟨.counter, ?_⟩
    simp only [call, checkpointPersisted]
    rw [Call.run_bind (Call.run_get s), if_pos]
    · rfl
    · rw [hgate]
      rintro hg
      exact hc (by rw [Option.some.inj hg])
  | prepareApplicationObject object now nonce =>
    refine ⟨.phase, ?_⟩
    simp only [call, prepareApplicationObject]
    rw [Call.run_bind (Call.run_get s), hgate]
    rfl

theorem checkpoint_alone {c : AllocatorCall} {s s' : AllocatorSession V}
    {effects : List AllocatorEffect} (hcall : call c s = .ok effects s')
    (hidle : ∀ effect ∈ s.afterPersist, effect.generation? = none) {generation : UInt64}
    {checkpoint carrier : Bytes} (hmem : .checkpoint generation checkpoint carrier ∈ effects) :
    effects = [.checkpoint generation checkpoint carrier] := by
  cases call_ok hcall with
  | bound _ _ heffects => simp [heffects] at hmem
  | persisted _ _ heffects =>
    have hnone := hidle _ (heffects ▸ hmem)
    simp [AllocatorEffect.generation?] at hnone
  | applied _ _ houtcome =>
    cases houtcome with
    | direct hdirect =>
      have hnone := List.filterMap_eq_nil_iff.mp hdirect.no_checkpoint _ hmem
      simp [AllocatorEffect.generation?] at hnone
    | moved _ hsealed =>
      obtain ⟨g, ck, k, _, -, rfl, -⟩ := hsealed
      obtain ⟨rfl, rfl, rfl⟩ : generation = g ∧ checkpoint = ck ∧ carrier = k := by
        simpa using hmem
      rfl

/-- What announces a transition for the first time comes from the confirmation of
the checkpoint that holds it. -/
theorem announced_after_checkpoint {s₀ : AllocatorSession V} {calls : List AllocatorCall}
    (h : Barred s₀ calls (Runs.after call s₀ calls)) {c : AllocatorCall} {s' : AllocatorSession V}
    {effects : List AllocatorEffect} (hcall : call c (Runs.after call s₀ calls) = .ok effects s')
    {effect : AllocatorEffect} (hmem : effect ∈ effects) (hannounces : effect.Announces)
    (hnew : effect.Transfer →
      effect ∉ Runs.released call s₀ calls ∧ ¬s₀.state.Contains effect) :
    ∃ generation source, c = .checkpointPersisted generation ∧
      LastCheckpoint s₀ calls generation source ∧ source.Contains effect := by
  cases call_ok hcall with
  | bound _ _ heffects =>
    obtain rfl := List.mem_singleton.mp (heffects ▸ hmem)
    exact hannounces.elim
  | persisted hc hgate heffects =>
    subst heffects
    obtain ⟨g, source, hgate', hlast, hcontains⟩ := h.held (List.ne_nil_of_mem hmem)
    obtain rfl := Option.some.inj (hgate.symm.trans hgate')
    exact ⟨_, source, hc, hlast, hcontains effect hmem⟩
  | applied _ hgate houtcome =>
    cases houtcome with
    | direct hdirect =>
      obtain ⟨htransfer, hcontains⟩ := hdirect.contained effect hmem hannounces
      obtain ⟨hout, hstart⟩ := hnew htransfer
      rcases h.accounted effect htransfer hcontains with hreleased | hin | hheld
      · exact absurd hreleased hout
      · exact absurd hin hstart
      · rw [h.idle hgate] at hheld
        simp at hheld
    | moved _ hsealed =>
      obtain ⟨_, _, _, _, -, rfl, -⟩ := hsealed
      obtain rfl := List.mem_singleton.mp hmem
      exact hannounces.elim

/-- The barrier along every run of a new or restored session. -/
theorem persistence_barrier (s₀ : AllocatorSession V) (h : Begins s₀)
    (calls : List AllocatorCall) :
    let s := Runs.after call s₀ calls
    (∀ c effects s', call c s = .ok effects s' → ∀ generation checkpoint carrier,
      .checkpoint generation checkpoint carrier ∈ effects →
        effects = [.checkpoint generation checkpoint carrier]) ∧
    List.IsChain (fun g g' : UInt64 => g.toNat < 2 ^ 64 - 1 → g'.toNat = g.toNat + 1)
      (s₀.state.generation :: generations s₀ calls) ∧
    (∀ c effects s', call c s = .ok effects s' → ∀ effect ∈ effects, effect.Announces →
      (effect.Transfer → effect ∉ Runs.released call s₀ calls ∧ ¬s₀.state.Contains effect) →
      ∃ generation source, c = .checkpointPersisted generation ∧
        LastCheckpoint s₀ calls generation source ∧ source.Contains effect) ∧
    ∀ generation, s.persistenceGate = some generation →
      ∀ c, c ≠ .checkpointPersisted generation → ∃ e, call c s = .error e s := by
  intro s
  have hbarred := barred s₀ h calls
  refine ⟨fun c effects s' hcall generation checkpoint carrier hmem => ?_, ?_, ?_, ?_⟩
  · refine checkpoint_alone hcall (fun effect heffect => ?_) hmem
    obtain ⟨_, _, -, -, hcontains⟩ := hbarred.held (List.ne_nil_of_mem heffect)
    exact (hcontains effect heffect).no_checkpoint
  · refine hbarred.counted.imp fun g g' hnext hbelow => ?_
    rw [hnext, saturatingSucc_toNat hbelow]
  · exact fun c effects s' hcall effect hmem hannounces hnew =>
      announced_after_checkpoint hbarred hcall hmem hannounces hnew
  · exact fun generation hgate c hc => gated_call hgate hc

end AllocatorSession
end CredentialV2

namespace CredentialV2

attribute [local instance] Primitives.transparent

theorem AllocatorSession.persistence_barrier_sample :
    Begins sample ∧ ∀ calls generation,
      (Runs.after call sample calls).persistenceGate = some generation →
      ∀ c, c ≠ .checkpointPersisted generation →
        ∃ e, call c (Runs.after call sample calls) = .error e (Runs.after call sample calls) := by
  have hbegins : Begins sample := .new new_sample
  refine ⟨hbegins, fun calls => ?_⟩
  exact (persistence_barrier sample hbegins calls).2.2.2

end CredentialV2
end CbclPairing
