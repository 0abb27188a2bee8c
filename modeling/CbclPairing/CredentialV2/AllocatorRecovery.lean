import CbclPairing.CredentialV2.Barrier
import CbclPairing.Recovery

/-! Allocator sessions across crashes: every state of a run is coherent, and what
is restored from one of its checkpoints is the state that was sealed. -/
namespace CbclPairing
namespace CredentialV2
open Codec Codec.Cbor Calls

variable [Primitives]

/-! ### Bootstrap states -/

namespace Bootstrap

theorem Coherent.pending_none {b : Bootstrap} (h : b.Coherent) (hphase : b.phase ≠ .finishedSent) :
    b.pending = none := by
  have hrecomputed := h.recomputed
  unfold revalidate at hrecomputed
  cases hp : b.phase with
  | allocated =>
    simp only [hp, Except.ok.injEq] at hrecomputed
    rw [← hrecomputed]
  | claimed =>
    simp only [hp, Except.ok.injEq] at hrecomputed
    rw [← hrecomputed]
  | shareSent =>
    simp only [hp, Calls.except_bind_eq_ok] at hrecomputed
    obtain ⟨_, -, ⟨_, _⟩, -, hrecomputed⟩ := hrecomputed
    obtain ⟨-, hrecomputed⟩ := Calls.guard_eq_ok.mp hrecomputed
    rw [← Except.ok.inj hrecomputed]
  | finishedSent => exact absurd hp hphase

/-- A pending channel is the one both retained shares give. -/
theorem Coherent.rebuilt {b : Bootstrap} (h : b.Coherent) (hphase : b.phase = .finishedSent) :
    ∃ pending, b.pending = some pending ∧ b.rebuildPending = .ok pending := by
  have hrecomputed := h.recomputed
  unfold revalidate at hrecomputed
  simp only [hphase, Calls.except_bind_eq_ok, Except.ok.injEq] at hrecomputed
  obtain ⟨pending, hrebuilt, hb⟩ := hrecomputed
  exact ⟨pending, by rw [← hb], hrebuilt⟩

theorem rebuildPending_side {b : Bootstrap} {pending : PendingChannel}
    (h : b.rebuildPending = .ok pending) : pending.localSide = .allocator := by
  simp only [rebuildPending, Calls.except_bind_eq_ok] at h
  obtain ⟨_, -, _, -, _, -, ⟨_, _⟩, -, built, hbuilt, h⟩ := h
  obtain ⟨-, h⟩ := Calls.guard_eq_ok.mp h
  obtain rfl := Except.ok.inj h
  simp only [schedule, Calls.except_bind_eq_ok] at hbuilt
  obtain ⟨_, -, _, -, _, -, hbuilt⟩ := hbuilt
  obtain rfl := Except.ok.inj hbuilt
  rfl

theorem new_eq_ok {carrier : Carrier} {presence : Presence} {profileDigest : Octets 32}
    {relay : RelayState} {mode : AllocatorMode} {b : Bootstrap}
    (h : Bootstrap.new carrier presence profileDigest relay mode = .ok b) :
    b = { carrier, mode, presence, profileDigest, relay, phase := .allocated, freshScalar := none
          peerCpace := none, peerFinished := none, pending := none, cachedOutbound := none
          checkpointGeneration := 0, checkpointNonce := none } := by
  unfold Bootstrap.new at h
  split_ifs at h
  exact (Except.ok.inj h).symm

theorem coherent_new {carrier : Carrier} {presence : Presence} {profileDigest token : Octets 32}
    {mode : AllocatorMode} {b : Bootstrap}
    (h : Bootstrap.new carrier presence profileDigest (RelayState.new token) mode = .ok b) :
    b.Coherent := by
  obtain rfl := new_eq_ok h
  exact ⟨rfl, rfl⟩

theorem Coherent.firstShare {b b' : Bootstrap} {peerSeq sequence : UInt8} {frame outbound : Frame}
    {scalar : Octets 32} (h : b.Coherent)
    (hshare : AllocatorSession.firstShare peerSeq frame scalar b = .ok (sequence, outbound) b') :
    b'.Coherent := by
  obtain ⟨relay, relay', state, haccept, hqueue, hphase, -, hstate, -, -, rfl⟩ :=
    AllocatorSession.firstShare_eq_ok.mp hshare
  obtain ⟨-, next, -, rfl⟩ := RelayState.acceptPeerSequence_eq_ok.mp haccept
  obtain ⟨-, -, -, next', -, rfl⟩ := RelayState.queueBootstrapFrame_eq_ok.mp hqueue
  refine ⟨h.uncached, ?_⟩
  have hpending := h.pending_none (by rw [hphase]; decide)
  rw [hpending]
  simp only [revalidate, orSchema_some, Calls.ok_bind]
  exact (congrArg (· >>= _) hstate).trans (if_neg (by simp))

theorem Coherent.finishedNext {b b' : Bootstrap} {sequence next : UInt8} {finished : Frame}
    (h : b.Coherent)
    (hfinished : AllocatorSession.finishedNext sequence b = .ok (next, finished) b') :
    b'.Coherent := by
  obtain ⟨relay, b₁, relay', hack, hprepare, hqueue, rfl⟩ :=
    AllocatorSession.finishedNext_eq_ok.mp hfinished
  obtain ⟨-, -, -, rfl⟩ := RelayState.acknowledgeBootstrapFrame_eq_ok.mp hack
  obtain ⟨-, peerFrame, peerMessage, scalar, state, localFrame, pending, hpeer, hmessage, hscalar,
    hshare, -, hschedule, -, rfl⟩ := prepareFinished_eq_ok.mp hprepare
  obtain ⟨-, -, -, next', -, rfl⟩ := RelayState.queueBootstrapFrame_eq_ok.mp hqueue
  refine ⟨h.uncached, ?_⟩
  have hrebuilt : rebuildPending { b with
      relay := { b.relay with nextLocalSequence := next', awaitingAck := true }
      pending := none, cachedOutbound := some pending.localFinishedFrame
      phase := .finishedSent } = .ok pending := by
    simp only [rebuildPending, Calls.except_bind_eq_ok]
    exact ⟨scalar, by rw [hscalar]; rfl, peerFrame, by rw [hpeer]; rfl, peerMessage,
      by rw [hmessage]; rfl, (state, localFrame), hshare, pending, hschedule, if_neg (by simp)⟩
  simp only [revalidate]
  exact (congrArg (· >>= _) hrebuilt).trans rfl

/-- Only the relay and the peer's Finished value moved, and nothing recomputed
depends on them. -/
theorem Coherent.moved {b : Bootstrap} (h : b.Coherent) {relay : RelayState}
    {peerFinished : Option Frame} (hcached : relay.cachedOutbound = none) :
    ({ b with relay, peerFinished } : Bootstrap).Coherent := by
  obtain ⟨carrier, mode, presence, profileDigest, relay₀, phase, freshScalar, peerCpace,
    peerFinished₀, pending, cachedOutbound, generation, nonce⟩ := b
  refine ⟨hcached, ?_⟩
  have hrecomputed := h.recomputed
  cases phase with
  | allocated =>
    have hpending := h.pending_none (by simp)
    dsimp only at hpending
    rw [hpending]
    rfl
  | claimed =>
    have hpending := h.pending_none (by simp)
    dsimp only at hpending
    rw [hpending]
    rfl
  | shareSent =>
    have hpending := h.pending_none (by simp)
    dsimp only at hpending
    rw [hpending] at hrecomputed ⊢
    simp only [revalidate, Calls.except_bind_eq_ok] at hrecomputed ⊢
    obtain ⟨scalar, hscalar, ⟨state, frame⟩, hshare, hrecomputed⟩ := hrecomputed
    refine ⟨scalar, hscalar, ⟨state, frame⟩, hshare, ?_⟩
    exact if_neg (Calls.guard_eq_ok.mp hrecomputed).1
  | finishedSent =>
    simp only [revalidate, Calls.except_bind_eq_ok, Except.ok.injEq, Bootstrap.mk.injEq] at hrecomputed ⊢
    obtain ⟨rebuilt, hrebuilt, hfields⟩ := hrecomputed
    refine ⟨rebuilt, hrebuilt, ?_⟩
    simp only [hfields.2.2.2.2.2.2.2.2.2.1, and_self]

end Bootstrap

/-! ### Established states -/

namespace Established

variable {V : Type} [BodyVerifier V]

theorem Coherent.prepared {s s' : Established V} {object : Object} {frame : Frame}
    (h : s.Coherent) (hprepare : prepareOutbound object s = .ok frame s') : s'.Coherent := by
  obtain ⟨-, ⟨-, -, rfl⟩ | ⟨-, -, endpoint, channel, relay, hsend, hseal, hcache, rfl⟩⟩ :=
    prepareOutbound_eq_ok.mp hprepare
  · exact h
  · obtain ⟨-, counter, -, -, rfl⟩ := SecureChannel.sealFrame_eq_ok.mp hseal
    obtain ⟨-, hsealed, next, -, rfl⟩ := RelayState.cacheApplicationFrame_eq_ok.mp hcache
    have haccepts := Endpoint.send_advanced hsend
    exact ⟨h.side_eq.trans haccepts.kept.2.1.symm, h.live, rfl, by simpa using hsealed,
      h.sound.accepts haccepts⟩

theorem Coherent.opened {s s' : Established V} {object : Object} {frame : Frame} {peerSeq : UInt8}
    (h : s.Coherent)
    (hopen : AllocatorSession.openPeerObject peerSeq frame s = .ok object s') : s'.Coherent := by
  obtain ⟨relay, plaintext, channel, advance, endpoint, haccept, hplain, -, hreceive, rfl⟩ :=
    AllocatorSession.openPeerObject_eq_ok.mp hopen
  obtain ⟨-, next, -, rfl⟩ := RelayState.acceptPeerSequence_eq_ok.mp haccept
  obtain ⟨hlive, counter, ciphertext, -, -, -, -, rfl⟩ := SecureChannel.openFrame_eq_ok.mp hplain
  rcases Endpoint.receive_ok hreceive with ⟨-, rfl⟩ | haccepts
  · exact ⟨h.side_eq, h.live, h.awaiting, h.sealed_, h.sound⟩
  · exact ⟨h.side_eq.trans haccepts.kept.2.1.symm, h.live, h.awaiting, h.sealed_,
      h.sound.accepts haccepts⟩

omit [BodyVerifier V] in
theorem Coherent.acknowledged {s : Established V} {relay : RelayState} {sequence : UInt8}
    (h : s.Coherent)
    (hack : RelayState.acknowledgeApplicationFrame sequence s.relay = .ok () relay) :
    ({ s with relay } : Established V).Coherent := by
  obtain ⟨-, rfl⟩ := RelayState.acknowledgeApplicationFrame_eq_ok.mp hack
  exact ⟨h.side_eq, h.live, rfl, rfl, h.sound⟩

omit [BodyVerifier V] in
theorem coherent_new {side : Side} {carrier : Carrier} {v : V} {channel : SecureChannel}
    {relay : RelayState} {generation : UInt64} {nonce : Option (Octets 12)}
    (hside : channel.localSide = side) (hlive : channel.terminal = false)
    (hawaiting : relay.awaitingAck = false) (hcached : relay.cachedOutbound = none) :
    (⟨{ Endpoint.new side carrier v with
      checkpointGeneration := generation, checkpointNonce := nonce }, channel, relay⟩ :
      Established V).Coherent where
  side_eq := hside
  live := hlive
  awaiting := by rw [hawaiting, hcached]; rfl
  sealed_ := by rw [hcached]; rfl
  sound := ⟨fun _ => rfl, by simp [Endpoint.new], by simp [Endpoint.new]⟩

omit [BodyVerifier V] in
theorem Coherent.stamped {s : Established V} (h : s.Coherent) (generation : UInt64)
    (nonce : Octets 12) :
    ({ s with endpoint := s.endpoint.stamped generation nonce } : Established V).Coherent :=
  ⟨h.side_eq, h.live, h.awaiting, h.sealed_, ⟨h.sound.projection, h.sound.intent, h.sound.faithful⟩⟩

omit [BodyVerifier V] in
theorem Coherent.recovered {s : Established V} (h : s.Coherent) (v : V) :
    (s.recovered v).Coherent := by
  refine ⟨h.side_eq, h.live, h.awaiting, h.sealed_, ?_, ?_, ?_⟩
  · intro hopen
    exact (consistentProjection_bytes _ _ _ _).trans (h.sound.projection hopen)
  · rintro last hlast hkind
    obtain ⟨last₀, hlast₀, rfl⟩ := Option.map_eq_some_iff.mp hlast
    exact h.sound.intent last₀ hlast₀ hkind
  · rintro last hlast
    obtain ⟨last₀, hlast₀, rfl⟩ := Option.map_eq_some_iff.mp hlast
    exact (h.sound.faithful last₀ hlast₀).filter _

omit [BodyVerifier V] in
/-- The bytes of the other side's objects are never left out. -/
theorem recovered_peer {s : Established V} {v : V} {last : LastObject}
    (hlast : last ∈ (s.recovered v).endpoint.last) (hpeer : last.sender ≠ s.endpoint.side) :
    last ∈ s.endpoint.last := by
  obtain ⟨last₀, hlast₀, rfl⟩ := Option.map_eq_some_iff.mp hlast
  have hsame : lastBytes s.endpoint.side s.relay last₀ = last₀.bytes := by
    unfold lastBytes
    cases hbytes : last₀.bytes with
    | none => rfl
    | some bytes => simp [show last₀.sender ≠ s.endpoint.side from hpeer]
  rw [hsame]
  exact hlast₀

theorem Complete.prepared {s s' : Established V} {object : Object} {frame : Frame}
    (h : s.Complete) (hprepare : prepareOutbound object s = .ok frame s') : s'.Complete := by
  obtain ⟨-, ⟨-, -, rfl⟩ | ⟨-, -, endpoint, channel, relay, hsend, -, -, rfl⟩⟩ :=
    prepareOutbound_eq_ok.mp hprepare
  · exact h
  · obtain ⟨hlast, -⟩ := (Endpoint.send_advanced hsend).kept
    simp [Complete, incomplete, hlast, missingBytes]

theorem Complete.opened {s s' : Established V} {object : Object} {frame : Frame} {peerSeq : UInt8}
    (h : s.Complete)
    (hopen : AllocatorSession.openPeerObject peerSeq frame s = .ok object s') : s'.Complete := by
  obtain ⟨relay, plaintext, channel, advance, endpoint, haccept, -, -, hreceive, rfl⟩ :=
    AllocatorSession.openPeerObject_eq_ok.mp hopen
  obtain ⟨-, next, -, rfl⟩ := RelayState.acceptPeerSequence_eq_ok.mp haccept
  rcases Endpoint.receive_ok hreceive with ⟨-, rfl⟩ | haccepts
  · exact h
  · obtain ⟨hlast, -⟩ := haccepts.kept
    simp [Complete, incomplete, hlast, missingBytes]

omit [BodyVerifier V] in
/-- An acknowledgement keeps the bytes complete as long as the latest object is
recorded with its own. -/
theorem complete_of_bytes {s : Established V}
    (h : ∀ last ∈ s.endpoint.last, last.bytes.isSome = true) : s.Complete := by
  rw [complete_iff]
  intro last hlast
  obtain ⟨bytes, hbytes⟩ := Option.isSome_iff_exists.mp (h last hlast)
  simp [missingBytes, hbytes]

end Established

/-! ### The states of a session -/

omit [Primitives] in
theorem PendingChannel.confirm_eq_ok {p : PendingChannel} {frame : Frame} {channel : SecureChannel}
    (h : p.confirm frame = .ok channel) :
    channel.localSide = p.localSide ∧ channel.transcriptHash = p.transcriptHash ∧
      channel.terminal = false ∧ channel.nextSendCounter = some 0 ∧
      channel.nextReceiveCounter = some 0 := by
  unfold PendingChannel.confirm at h
  cases hvalue : frame.finishedValue with
  | none => simp [hvalue] at h
  | some value =>
    obtain ⟨peerSide, value⟩ := value
    simp only [hvalue] at h
    obtain ⟨-, h⟩ := Calls.guard_eq_ok.mp h
    cases hside : p.localSide <;> simp only [hside] at h <;> obtain rfl := Except.ok.inj h <;>
      exact ⟨rfl, rfl, rfl, rfl, rfl⟩

variable {V : Type}

/-- What every state of a session of one mode and profile keeps. -/
def AllocatorState.Coherent (mode : AllocatorMode) (profileDigest : Octets 32) :
    AllocatorState V → Prop
  | .bootstrap b => b.Coherent ∧ b.mode = mode ∧ b.profileDigest = profileDigest
  | .established e => e.Coherent ∧ (AllocatorState.established e).Sided
  | _ => True

namespace AllocatorSession
open AllocatorState

variable [BodyVerifier V]

theorem Transition.coherent {s s₁ : AllocatorSession V} {cause : Cause}
    {after : List AllocatorEffect} (h : Transition s cause s₁ after)
    (hs : s.state.Coherent s.mode s.profileDigest) :
    s₁.state.Coherent s.mode s.profileDigest ∧ s₁.mode = s.mode ∧
      s₁.profileDigest = s.profileDigest ∧ s₁.wrappingKey = s.wrappingKey := by
  cases h with
  | allocation _ _ _ hnew =>
    refine ⟨⟨Bootstrap.coherent_new hnew, ?_⟩, rfl, rfl, rfl⟩
    obtain rfl := Bootstrap.new_eq_ok hnew
    exact ⟨rfl, rfl⟩
  | shared hstate _ _ _ hshare =>
    rw [hstate] at hs
    refine ⟨⟨hs.1.firstShare hshare, ?_⟩, rfl, rfl, rfl⟩
    obtain ⟨_, _, _, -, -, -, -, -, -, -, rfl⟩ := firstShare_eq_ok.mp hshare
    exact hs.2
  | shareAcknowledged hstate _ hfinished =>
    rw [hstate] at hs
    refine ⟨⟨hs.1.finishedNext hfinished, ?_⟩, rfl, rfl, rfl⟩
    obtain ⟨_, _, _, -, hprepare, -, rfl⟩ := finishedNext_eq_ok.mp hfinished
    obtain ⟨-, _, _, _, _, _, _, -, -, -, -, -, -, -, rfl⟩ :=
      Bootstrap.prepareFinished_eq_ok.mp hprepare
    exact hs.2
  | finishedAcknowledged hstate _ hack =>
    rw [hstate] at hs
    obtain ⟨_, hrelay, -, rfl⟩ := finishedAcknowledged_eq_ok.mp hack
    obtain ⟨-, -, -, rfl⟩ := RelayState.acknowledgeBootstrapFrame_eq_ok.mp hrelay
    exact ⟨⟨hs.1.moved hs.1.uncached, hs.2⟩, rfl, rfl, rfl⟩
  | peerFinished hstate _ _ hpeer =>
    rw [hstate] at hs
    obtain ⟨_, haccept, -, -, -, -, rfl⟩ := peerFinished_eq_ok.mp hpeer
    obtain ⟨-, _, -, rfl⟩ := RelayState.acceptPeerSequence_eq_ok.mp haccept
    exact ⟨⟨hs.1.moved hs.1.uncached, hs.2⟩, rfl, rfl, rfl⟩
  | @established _ b b' frame channel relay v ack hstate hphase harrived _ hconfirm hawaiting =>
    rw [hstate] at hs
    have hb' : b'.Coherent := by
      rcases harrived with ⟨-, _, -, hack⟩ | ⟨_, _, _, _, -, -, -, -, hpeer⟩
      · obtain ⟨_, hrelay, -, rfl⟩ := finishedAcknowledged_eq_ok.mp hack
        obtain ⟨-, -, -, rfl⟩ := RelayState.acknowledgeBootstrapFrame_eq_ok.mp hrelay
        exact hs.1.moved hs.1.uncached
      · obtain ⟨_, haccept, -, -, -, -, rfl⟩ := peerFinished_eq_ok.mp hpeer
        obtain ⟨-, _, -, rfl⟩ := RelayState.acceptPeerSequence_eq_ok.mp haccept
        exact hs.1.moved hs.1.uncached
    obtain ⟨hphase', rfl, pending, hpending, hconfirm⟩ := Bootstrap.confirm_eq_ok.mp hconfirm
    obtain ⟨rebuilt, hrebuilt, hside⟩ := hb'.rebuilt hphase'
    obtain rfl := Option.some.inj (hpending.symm.trans hrebuilt)
    obtain ⟨hlocal, -, hlive, -, -⟩ := PendingChannel.confirm_eq_ok hconfirm
    exact ⟨⟨Established.coherent_new (hlocal.trans (Bootstrap.rebuildPending_side hside)) hlive
      hawaiting hb'.uncached, rfl, by simp [Endpoint.new]⟩, rfl, rfl, rfl⟩
  | sent hstate hprepare hsequence hput =>
    rw [hstate] at hs
    refine ⟨⟨hs.1.prepared hprepare, ?_⟩, rfl, rfl, rfl⟩
    exact Transition.sided (.sent hstate hprepare hsequence hput) (by rw [hstate]; exact hs.2)
  | received hstate hframe hopen hack =>
    rw [hstate] at hs
    refine ⟨⟨hs.1.opened hopen, ?_⟩, rfl, rfl, rfl⟩
    exact Transition.sided (.received hstate hframe hopen hack) (by rw [hstate]; exact hs.2)
  | acknowledged hstate hack =>
    rw [hstate] at hs
    exact ⟨⟨hs.1.acknowledged hack, hs.2⟩, rfl, rfl, rfl⟩

theorem Seals.coherent {key : Octets 32} {now generation : UInt64} {nonce : Octets 12}
    {checkpoint carrier : Bytes} {state state' : AllocatorState V} {mode : AllocatorMode}
    {profileDigest : Octets 32}
    (h : Seals key now nonce state generation checkpoint carrier state')
    (hstate : state.Coherent mode profileDigest) : state'.Coherent mode profileDigest := by
  cases h with
  | bootstrap hseal =>
    obtain ⟨-, -, -, rfl⟩ := Bootstrap.sealCheckpoint_eq_ok.mp hseal
    exact ⟨⟨hstate.1.uncached, Bootstrap.revalidate_stamped hstate.1.recomputed _ nonce⟩, hstate.2⟩
  | established hseal =>
    obtain ⟨-, -, -, -, rfl⟩ := Endpoint.sealCheckpoint_eq_ok.mp hseal
    exact ⟨hstate.1.stamped _ nonce, hstate.2⟩

end AllocatorSession

/-! ### Restoring -/

/-- An endpoint checkpoint is no bootstrap checkpoint: their tags differ. -/
theorem Bootstrap.decodeInner_endpoint (carrier : Carrier) (generation : UInt64)
    (nonce : Octets 12) (mode : AllocatorMode) (rest : Bytes) :
    ∃ e, Bootstrap.decodeInner carrier generation nonce mode (innerDomain ++ rest) = .error e := by
  cases hdecode : Bootstrap.decodeInner carrier generation nonce mode (innerDomain ++ rest) with
  | error e => exact ⟨e, rfl⟩
  | ok result =>
    exfalso
    obtain ⟨b, rest'⟩ := result
    unfold Bootstrap.decodeInner at hdecode
    obtain ⟨tag, _, htag, hdecode⟩ := Cursor.bind_eq_ok.mp hdecode
    obtain ⟨mode', _, hmode, -⟩ := Cursor.bind_eq_ok.mp hdecode
    obtain ⟨hmode, -⟩ := Read.verdict_eq_ok.mp hmode
    have htake : tag.take 14 = innerDomain.take 14 := by
      unfold Cursor.take at htag
      split_ifs at htag
      simp only [Except.ok.injEq, Prod.mk.injEq] at htag
      rw [← htag.1, List.take_take, List.take_append_of_le_length (by decide)]
      rfl
    unfold Bootstrap.decodeMode at hmode
    split_ifs at hmode with hold hnew
    · rw [hold] at htake
      revert htake
      decide
    · have hsame : tag.take 14 = Bootstrap.domain.take 14 := by
        rw [← hnew, List.take_take]
        rfl
      rw [hsame] at htake
      revert htake
      decide

/-- Whatever is restored from a sealed bootstrap is that bootstrap. -/
theorem Bootstrap.restoreCheckpoint_of_sealed {wrappingKey : Octets 32}
    {generation now later : UInt64} {nonce : Octets 12} {b b' r : Bootstrap} {checkpoint : Bytes}
    (h : Bootstrap.sealCheckpoint wrappingKey generation nonce now b = .ok checkpoint b')
    (hcoherent : b.Coherent)
    (hrestore : Bootstrap.restoreCheckpoint checkpoint wrappingKey b.carrier generation later
      b.mode = .ok r) : r = b' := by
  obtain ⟨-, ⟨hgeneration, -, -⟩, ⟨plaintext, -, hseal⟩, -⟩ :=
    Bootstrap.sealCheckpoint_eq_ok.mp h
  have hlater : later < b.carrier.relayExpiresAt := by
    simp only [Bootstrap.restoreCheckpoint, Calls.except_bind_eq_ok] at hrestore
    obtain ⟨opened, hopened, -⟩ := hrestore
    exact openCheckpointPlaintext_live hseal hgeneration hopened _ rfl
  rw [Bootstrap.restoreCheckpoint_sealCheckpoint h hcoherent hlater] at hrestore
  exact (Except.ok.inj hrestore).symm

theorem Bootstrap.restoreCheckpoint_endpoint [BodyVerifier V] {e endpoint : Endpoint V}
    {channel : SecureChannel} {relay : RelayState} {wrappingKey : Octets 32}
    {generation now later : UInt64} {expiry : Option UInt64} {nonce : Octets 12}
    {checkpoint : Bytes} {mode : AllocatorMode} {b : Bootstrap}
    (h : Endpoint.sealCheckpoint channel relay wrappingKey generation expiry nonce now e =
      .ok checkpoint endpoint) (hside : e.side = .allocator) :
    Bootstrap.restoreCheckpoint checkpoint wrappingKey e.carrier generation later mode ≠ .ok b := by
  intro hrestore
  obtain ⟨-, -, ⟨hgeneration, -, -⟩, ⟨plaintext, hencode, hseal⟩, -⟩ :=
    Endpoint.sealCheckpoint_eq_ok.mp h
  rw [hside] at hseal
  simp only [Bootstrap.restoreCheckpoint, Calls.except_bind_eq_ok, Calls.guard_eq_ok] at hrestore
  obtain ⟨opened, hopened, -, ⟨b', rest⟩, hdecode, -⟩ := hrestore
  have hlive := openCheckpointPlaintext_live hseal hgeneration hopened
  obtain rfl := Except.ok.inj
    ((openCheckpointPlaintext_seal hseal hgeneration hlive).symm.trans hopened)
  simp only [CredentialV2.encodeInner, Calls.except_bind_eq_ok, Except.ok.injEq] at hencode
  obtain ⟨carrier, -, last, -, state, -, verifier, -, relay', -, rfl⟩ := hencode
  simp only [List.append_assoc] at hdecode
  obtain ⟨error, herror⟩ := Bootstrap.decodeInner_endpoint e.carrier generation nonce mode _
  rw [herror] at hdecode
  cases hdecode

/-- A checkpoint with its carrier, as the host keeps it. -/
structure StoredCheckpoint where
  generation : UInt64
  checkpoint : Bytes
  carrier : Bytes
  deriving DecidableEq

/-- What the host knows for the whole ceremony. -/
structure AllocatorHost where
  wrappingKey : Octets 32
  profileDigest : Octets 32
  mode : AllocatorMode

/-- What the host brings to one recovery. -/
structure AllocatorReturn (V : Type) where
  now : UInt64
  freshCpaceScalar : Octets 32
  bodyVerifier : V

/-- A restored state is the sealed one, up to the bytes the checkpoint left out
and the verifier. -/
inductive AllocatorState.Resumes : AllocatorState V → AllocatorState V → Prop
  | bootstrap {b : Bootstrap} : Resumes (.bootstrap b) (.bootstrap b)
  | established {e : Established V} {v : V} : Resumes (.established e) (.established (e.recovered v))

theorem AllocatorState.Coherent.sided {state : AllocatorState V} {mode : AllocatorMode}
    {profileDigest : Octets 32} (h : state.Coherent mode profileDigest) : state.Sided := by
  cases state with
  | established e => exact h.2
  | _ => trivial

theorem AllocatorState.Resumes.coherent {state state' : AllocatorState V} {mode : AllocatorMode}
    {profileDigest : Octets 32} (h : state.Resumes state')
    (hstate : state.Coherent mode profileDigest) : state'.Coherent mode profileDigest := by
  cases h with
  | bootstrap => exact hstate
  | established =>
    obtain ⟨hcoherent, hside, hpeer⟩ := hstate
    refine ⟨hcoherent.recovered _, hside, fun last hlast hsender => ?_⟩
    exact hpeer last (Established.recovered_peer hlast (by rw [hside, hsender]; decide)) hsender

/-- The host of a new session. -/
def AllocatorInput.host (input : AllocatorInput) : AllocatorHost :=
  ⟨input.checkpointWrappingKey, input.profileDigest, input.mode⟩

namespace AllocatorSession
open AllocatorState

variable [BodyVerifier V]

/-- Restoring under the host's own bindings. -/
def reopen (host : AllocatorHost) (r : AllocatorReturn V) (stored : StoredCheckpoint) :
    Except Error (AllocatorSession V) := do
  let carrier ← decodeCarrier stored.carrier
  restore stored.checkpoint host.wrappingKey carrier stored.generation host.profileDigest r.now
    host.mode r.freshCpaceScalar r.bodyVerifier

/-- A session rebuilt by the host. -/
structure Reopened (host : AllocatorHost) (r : AllocatorReturn V) (state : AllocatorState V)
    (s : AllocatorSession V) : Prop where
  resumes : state.Resumes s.state
  wrappingKey : s.wrappingKey = host.wrappingKey
  profileDigest : s.profileDigest = host.profileDigest
  mode : s.mode = host.mode
  ungated : s.persistenceGate = none
  idle : s.afterPersist = []
  resume : s.resumeAfterWelcome = true
  scalar : ∀ b, s.state = .bootstrap b →
    s.cpaceScalar = if b.phase = .allocated then some r.freshCpaceScalar else none
  verifier : ∀ b, s.state = .bootstrap b → s.bodyVerifier.isSome = true

theorem reopen_sealed {host : AllocatorHost} {r : AllocatorReturn V} {now generation : UInt64}
    {nonce : Octets 12} {checkpoint carrier : Bytes} {state state' : AllocatorState V}
    {s : AllocatorSession V}
    (hseals : Seals host.wrappingKey now nonce state generation checkpoint carrier state')
    (hcoherent : state.Coherent host.mode host.profileDigest)
    (hreopen : reopen host r ⟨generation, checkpoint, carrier⟩ = .ok s) :
    Reopened host r state' s := by
  cases hseals with
  | @bootstrap b b' _ hseal =>
    obtain ⟨hb, hmode, hprofile⟩ := hcoherent
    simp only [reopen, Carrier.decodeCarrier_encodeCarrier, Calls.ok_bind, restore] at hreopen
    split at hreopen
    · next restored hrestored =>
      rw [← hmode] at hrestored
      obtain rfl := Bootstrap.restoreCheckpoint_of_sealed hseal hb hrestored
      obtain ⟨-, hreopen⟩ := Calls.guard_eq_ok.mp hreopen
      obtain rfl := Except.ok.inj hreopen
      refine ⟨.bootstrap, rfl, rfl, rfl, rfl, rfl, rfl, ?_, ?_⟩
      · rintro b hb
        obtain rfl := AllocatorState.bootstrap.inj hb
        rfl
      · rintro b hb
        rfl
    · next hfailed =>
      -- what opens is live, and a live bootstrap checkpoint is restored
      exfalso
      simp only [Calls.except_bind_eq_ok, Endpoint.restoreCheckpoint] at hreopen
      obtain ⟨_, ⟨opened, hopened, -⟩, -⟩ := hreopen
      obtain ⟨-, ⟨hgeneration, -, -⟩, ⟨plaintext, -, hplain⟩, -⟩ :=
        Bootstrap.sealCheckpoint_eq_ok.mp hseal
      have hlive := openCheckpointPlaintext_live hplain hgeneration hopened _ rfl
      rw [← hmode, Bootstrap.restoreCheckpoint_sealCheckpoint hseal hb hlive] at hfailed
      simp at hfailed
  | @established e endpoint _ hseal =>
    obtain ⟨he, hside, -⟩ := hcoherent
    simp only [reopen, Carrier.decodeCarrier_encodeCarrier, Calls.ok_bind, restore] at hreopen
    split at hreopen
    · next restored hrestored =>
      exact absurd hrestored (Bootstrap.restoreCheckpoint_endpoint hseal hside)
    · simp only [Calls.except_bind_eq_ok] at hreopen
      obtain ⟨restored, hrestored, hreopen⟩ := hreopen
      obtain rfl := Except.ok.inj hreopen
      rw [← hside] at hrestored
      obtain ⟨-, v', rfl⟩ := Endpoint.restoreCheckpoint_of_sealed hseal he hrestored
      refine ⟨.established, rfl, rfl, rfl, rfl, rfl, rfl, ?_, ?_⟩
      · rintro b hb
        cases hb
      · rintro b hb
        cases hb

/-! ### Runs with crashes -/

def machine (host : AllocatorHost) : Recovery.Machine Error (AllocatorSession V) AllocatorCall
    AllocatorEffect StoredCheckpoint (AllocatorReturn V) where
  call := call
  checkpoint?
    | .checkpoint generation checkpoint carrier => some ⟨generation, checkpoint, carrier⟩
    | _ => none
  confirms
    | .checkpointPersisted generation, stored => generation == stored.generation
    | _, _ => false
  restore := reopen host
  down := .terminal

/-- What every allowed move gives the state it seals (`I`), and every seal and
restore the state a session rests in (`J`). -/
structure StateInvariant (host : AllocatorHost) (C : AllocatorCall → AllocatorSession V → Prop)
    (I J : AllocatorState V → Prop) : Prop where
  awaitWelcome : J .awaitWelcome
  awaitAllocation : J .awaitAllocation
  moved : ∀ {c : AllocatorCall} {s s₁ : AllocatorSession V} {cause : Cause}
    {after : List AllocatorEffect}, s.state.Coherent host.mode host.profileDigest → J s.state →
    C c s → c.cause = some cause → Transition s cause s₁ after → I s₁.state
  sealed_ : ∀ {key : Octets 32} {now generation : UInt64} {nonce : Octets 12}
    {checkpoint carrier : Bytes} {state state' : AllocatorState V},
    Seals key now nonce state generation checkpoint carrier state' → I state → J state'
  resumed : ∀ {state state' : AllocatorState V}, J state → state.Resumes state' → J state'

/-- A session the host can still recover. -/
structure Running (host : AllocatorHost) (J : AllocatorState V → Prop) (s : AllocatorSession V) :
    Prop where
  wrappingKey : s.wrappingKey = host.wrappingKey
  profileDigest : s.profileDigest = host.profileDigest
  mode : s.mode = host.mode
  coherent : s.state.Coherent host.mode host.profileDigest
  invariant : J s.state
  idle : s.persistenceGate = none → s.afterPersist = []

/-- No checkpoint is held back, and a session that has not ended is running. -/
structure Kept (host : AllocatorHost) (J : AllocatorState V → Prop) (s : AllocatorSession V) :
    Prop where
  held : ∀ effect ∈ s.afterPersist, effect.generation? = none
  running : s.state ≠ .terminal → Running host J s

/-- A checkpoint sealed from a state with the property. -/
def Sound (host : AllocatorHost) (I : AllocatorState V → Prop) (stored : StoredCheckpoint) : Prop :=
  ∃ now nonce state state', Seals host.wrappingKey now nonce state stored.generation
    stored.checkpoint stored.carrier state' ∧ state.Coherent host.mode host.profileDigest ∧ I state

omit [BodyVerifier V] in
theorem Direct.running {host : AllocatorHost} {J : AllocatorState V → Prop}
    {s s' : AllocatorSession V} {effects : List AllocatorEffect} (hJ : J .awaitAllocation)
    (h : Direct s effects s') (hs : Kept host J s) : Kept host J s' := by
  cases h with
  | silent => exact hs
  | reopened =>
    refine ⟨hs.held, fun hopen => ?_⟩
    obtain ⟨hkey, hprofile, hmode, hcoherent, hinvariant, hidle⟩ := hs.running hopen
    exact ⟨hkey, hprofile, hmode, hcoherent, hinvariant, hidle⟩
  | requested hstate =>
    obtain ⟨hkey, hprofile, hmode, -, -, hidle⟩ := hs.running (by simp [hstate])
    exact ⟨hs.held, fun _ => ⟨hkey, hprofile, hmode, trivial, hJ, hidle⟩⟩
  | repeated => exact hs
  | closed => exact ⟨by simp [terminate], fun hopen => absurd rfl hopen⟩

theorem Seals.checkpoint_running {host : AllocatorHost} {I J : AllocatorState V → Prop}
    {C : AllocatorCall → AllocatorSession V → Prop} (hJ : StateInvariant host C I J)
    {c : AllocatorCall} {cause : Cause} {s s₁ s' : AllocatorSession V}
    {after effects : List AllocatorEffect} {now : UInt64} {nonce : Octets 12} (hs : Kept host J s)
    (hc : C c s) (hcause : c.cause = some cause) (htransition : Transition s cause s₁ after)
    (hsealed : Sealed s₁ after now nonce effects s') :
    Kept host J s' ∧ ∀ x ∈ effects, ∀ k ∈ (machine host (V := V)).checkpoint? x,
      Sound host I k := by
  obtain ⟨generation, checkpoint, carrier, state', hseals, rfl, rfl⟩ := hsealed
  have hrunning := hs.running htransition.generation.1
  have hheld := htransition.contains hrunning.coherent.sided
  have hcoherent : s.state.Coherent s.mode s.profileDigest := by
    rw [hrunning.mode, hrunning.profileDigest]
    exact hrunning.coherent
  obtain ⟨hcoherent, hmode, hprofile, hkey⟩ := htransition.coherent hcoherent
  rw [hrunning.mode, hrunning.profileDigest] at hcoherent
  have hinvariant := hJ.moved hrunning.coherent hrunning.invariant hc hcause htransition
  refine ⟨⟨fun effect heffect => (hheld effect heffect).no_checkpoint, fun _ =>
    ⟨hkey.trans hrunning.wrappingKey, hprofile.trans hrunning.profileDigest,
      hmode.trans hrunning.mode, hseals.coherent hcoherent, hJ.sealed_ hseals hinvariant,
      (by intros; contradiction)⟩⟩, ?_⟩
  rintro x hx k hk
  obtain rfl := List.mem_singleton.mp hx
  obtain rfl := Option.some.inj hk
  rw [hkey, hrunning.wrappingKey] at hseals
  exact ⟨now, nonce, s₁.state, state', hseals, hcoherent, hinvariant⟩

theorem checkpoint?_eq_none {host : AllocatorHost} {effect : AllocatorEffect}
    (h : effect.generation? = none) : (machine host (V := V)).checkpoint? effect = none := by
  cases effect with
  | checkpoint => cases h
  | _ => rfl

theorem machine_keeps {host : AllocatorHost} {I J : AllocatorState V → Prop}
    {C : AllocatorCall → AllocatorSession V → Prop} (hJ : StateInvariant host C I J) :
    (machine host).Keeps C (Kept host J) (Sound host I) where
  ok := by
    intro c s s' effects hs hc hcall
    cases call_ok hcall with
    | bound _ _ heffects hs' =>
      subst hs' heffects
      refine ⟨hs, ?_⟩
      rintro x hx k hk
      obtain rfl := List.mem_singleton.mp hx
      cases hk
    | persisted _ _ heffects hs' =>
      subst hs' heffects
      refine ⟨⟨by simp, fun hopen => ?_⟩, ?_⟩
      · obtain ⟨hkey, hprofile, hmode, hcoherent, hinvariant, -⟩ := hs.running hopen
        exact ⟨hkey, hprofile, hmode, hcoherent, hinvariant, fun _ => rfl⟩
      · rintro x hx k hk
        rw [checkpoint?_eq_none (hs.held x hx)] at hk
        cases hk
    | applied hcause _ houtcome =>
      cases houtcome with
      | direct hdirect =>
        refine ⟨hdirect.running hJ.awaitAllocation hs, ?_⟩
        rintro x hx k hk
        have hnone := List.filterMap_eq_nil_iff.mp hdirect.no_checkpoint x hx
        rw [checkpoint?_eq_none hnone] at hk
        cases hk
      | moved htransition hsealed =>
        exact Seals.checkpoint_running hJ hs hc hcause htransition hsealed
  error := by
    intro c s s' e hs _ hcall
    rcases call_error hcall with rfl | ⟨s'', rfl⟩
    · exact hs
    · exact ⟨by simp [terminate], fun hopen => absurd rfl hopen⟩
  restore := by
    rintro r ⟨generation, checkpoint, carrier⟩ s ⟨now, nonce, state, state', hseals, hcoherent,
      hinvariant⟩ hreopen
    have hreopened := reopen_sealed hseals hcoherent hreopen
    refine ⟨by simp [hreopened.idle], fun _ => ⟨hreopened.wrappingKey, hreopened.profileDigest,
      hreopened.mode, hreopened.resumes.coherent (hseals.coherent hcoherent), ?_,
      fun _ => hreopened.idle⟩⟩
    exact hJ.resumed (hJ.sealed_ hseals hinvariant) hreopened.resumes

omit [BodyVerifier V] in
theorem new_kept {J : AllocatorState V → Prop} {input : AllocatorInput} {v : V}
    {s : AllocatorSession V} (hJ : J .awaitWelcome) (h : AllocatorSession.new input v = .ok s) :
    Kept input.host J s := by
  simp only [AllocatorSession.new, Calls.guard_eq_ok, Calls.except_bind_eq_ok] at h
  obtain ⟨-, -, _, -, h⟩ := h
  obtain rfl := Except.ok.inj h
  exact ⟨by simp, fun _ => ⟨rfl, rfl, rfl, trivial, hJ, fun _ => rfl⟩⟩

end AllocatorSession

end CredentialV2
/-! ### The sample session up to its channel -/

namespace CredentialV2
open Codec Calls

attribute [local instance] Primitives.transparent

namespace AllocatorSession

abbrev SampleAct := Recovery.Act AllocatorCall (AllocatorReturn Unit)

/-- The sample session after some acts, with recovery from confirmed checkpoints. -/
def rehearsed (acts : List SampleAct) : Recovery.World (AllocatorSession Unit) StoredCheckpoint :=
  Runs.after ((machine AllocatorInput.sample.host).step .confirmed) (.start sample) acts

def rehearsedBootstrap (acts : List SampleAct) : Option Bootstrap :=
  (rehearsed acts).live.bind bootstrap?

theorem allocated_recognised :
    (ServerMessage.allocatedV2 (fill 32 [1]) (fill 32 [9]) 100).recognised = true := rfl

/-- The relay allocates the mailbox. -/
def allocation : List SampleAct :=
  [.call (.receive (.ok ⟨.welcome, ServerMessage.recognised_welcome⟩) 0 (fill 12 [0])),
    .call (.receive (.ok ⟨.allocatedV2 (fill 32 [1]) (fill 32 [9]) 100, allocated_recognised⟩) 0
      (fill 12 [1])),
    .call (.checkpointPersisted 1)]

/-- The share of a claimant that holds the carrier and the presence secrets. -/
def claimantShare (scalar : Octets 32) : Bytes :=
  match rehearsedBootstrap allocation with
  | none => []
  | some b =>
    let share : Except Error Bytes := do
      let (_, message) ← (Context.derive b.carrier b.profileDigest).startCpace .claimant b.presence
        scalar
      let frame ← Frame.ofCpace message
      encodeFrame frame
    share.toOption.getD []

theorem claimantShare_recognised :
    (ServerMessage.frame 0 (claimantShare (fill 32 [10]))).recognised = true := by
  decide +kernel

/-- The claimant's share arrives and is retained. -/
def pinning : List SampleAct :=
  [.call (.receive (.ok ⟨.frame 0 (claimantShare (fill 32 [10])), claimantShare_recognised⟩) 0
      (fill 12 [2])), .call (.checkpointPersisted 2)]

/-- The relay acknowledges the allocator's share. -/
def confirming : List SampleAct :=
  [.call (.receive (.ok ⟨.acknowledged 0, ServerMessage.recognised_acknowledged_zero⟩) 0
      (fill 12 [3])), .call (.checkpointPersisted 3)]

def claimantFinished : Bytes :=
  match (rehearsedBootstrap (allocation ++ pinning ++ confirming)).bind Bootstrap.pending with
  | none => []
  | some pending =>
    ((encodeFrame (.finished .claimant pending.peerFinished)).toOption).getD []

/-- The allocator's Finished value is acknowledged and the claimant's arrives. -/
def establishing : List SampleAct :=
  [.call (.receive (.ok ⟨.acknowledged 1, rfl⟩) 0 (fill 12 [4])), .call (.checkpointPersisted 4),
    .call (.receive (.ok ⟨.frame 1 claimantFinished, by decide +kernel⟩) 0 (fill 12 [5])),
    .call (.checkpointPersisted 5)]

def rehearsal : List SampleAct := allocation ++ pinning ++ confirming ++ establishing

example : ((rehearsed rehearsal).live.bind established?).isSome = true := by decide +kernel

end AllocatorSession
end CredentialV2
end CbclPairing
