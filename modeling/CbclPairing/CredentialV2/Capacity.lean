import CbclPairing.CredentialV2.AllocatorRecovery

/-! How far the sequences, counters and frames of an allocator session can get,
and when its next checkpoint has room. -/
namespace CbclPairing
namespace CredentialV2
open Codec Codec.Cbor Calls

variable [Primitives] {V : Type}

/-! ### Sequences and counters -/

omit [Primitives] in
/-- How many own objects precede a phase at most. -/
def ownObjects : Phase → ℕ
  | .begin | .accountSelected => 0
  | .offered | .intentApproved | .prepared => 1
  | .confirmed | .finalApproved | .payloadSent => 2
  | .terminal => 3

/-- The ciphertext of one object. -/
def Frame.OfObject (f : Frame) : Prop :=
  ∃ direction counter ciphertext, f = .sealed direction counter ciphertext ∧
    16 < ciphertext.length ∧ ciphertext.length ≤ 64576

omit [Primitives] in
theorem Frame.OfObject.admissible {f : Frame} (h : f.OfObject) : f.admissible = true := by
  obtain ⟨_, _, ciphertext, rfl, hpos, hle⟩ := h
  have hmax : ciphertext.length ≤ maxFrameCiphertext := hle.trans (by decide)
  have hmin : 17 ≤ ciphertext.length := hpos
  simp [Frame.admissible, hmin, hmax]

omit [Primitives] in
theorem Frame.OfObject.encoded {f : Frame} (h : f.OfObject) :
    encodeFrame f = .ok (toCanonicalVec (.map f.entries)) ∧
      0 < (toCanonicalVec (.map f.entries)).length ∧
      (toCanonicalVec (.map f.entries)).length ≤ 64634 := by
  have hencode := Frame.encodeFrame_ok h.admissible
  obtain ⟨direction, counter, ciphertext, rfl, -, hle⟩ := h
  have hlength := Frame.sealed_length direction counter ciphertext
  have hcounter := headSize_le (Nat.le_of_lt_succ counter.toNat_lt)
  have hciphertext := headSize_le hle
  have h9 : headSize 18446744073709551615 = 9 := rfl
  have h3 : headSize 64576 = 3 := rfl
  exact ⟨hencode, by omega, by omega⟩

/-- The bounds of an established state. -/
structure Established.Bounded (e : Established V) : Prop where
  localSequence : e.relay.nextLocalSequence.toNat ≤ 2 + ownObjects e.endpoint.phase
  sendCounter : ∃ n, e.channel.nextSendCounter = some n ∧
    n.toNat + 2 = e.relay.nextLocalSequence.toNat
  receiveCounter : ∃ n, e.channel.nextReceiveCounter = some n ∧
    n.toNat + 2 ≤ e.relay.nextPeerSequence.toNat
  cached : ∀ f ∈ e.relay.cachedOutbound, f.OfObject
  intent : e.relay.cachedOutbound.isSome = true → e.endpoint.intentDigest.isSome = true

omit [Primitives] in
def sentFrames : BootstrapPhase → ℕ
  | .allocated | .claimed => 0
  | .shareSent => 1
  | .finishedSent => 2

omit [Primitives] in
def seenFrames : BootstrapPhase → Bool → ℕ
  | .allocated, _ | .claimed, _ => 0
  | .shareSent, _ => 1
  | .finishedSent, finished => if finished then 2 else 1

/-- The bounds of a bootstrap, and what its phase has retained of the peer. -/
structure Bootstrap.Bounded (b : Bootstrap) : Prop where
  localSequence : b.relay.nextLocalSequence.toNat = sentFrames b.phase
  peerSequence : seenFrames b.phase b.peerFinished.isSome ≤ b.relay.nextPeerSequence.toNat
  unshared : b.phase = .allocated → b.peerCpace = none
  shared : 0 < sentFrames b.phase → b.peerCpace.isSome = true
  unfinished : b.phase ≠ .finishedSent → b.peerFinished = none

namespace AllocatorState

/-- The bounds of a state about to be sealed. -/
def Bounded : AllocatorState V → Prop
  | .bootstrap b => b.Bounded
  | .established e => e.Bounded
  | _ => True

/-- The bounds of a resting state: a sealed terminal state has released its
Receipt. -/
def Settled : AllocatorState V → Prop
  | .established e => e.Bounded ∧
      (e.endpoint.phase = .terminal → e.endpoint.receiptReleased = true)
  | state => state.Bounded

theorem Settled.bounded {state : AllocatorState V} (h : state.Settled) : state.Bounded := by
  cases state with
  | established e => exact h.1
  | _ => exact h

end AllocatorState

/-- An accepted object moves the phase past it. -/
theorem Endpoint.Accepts.ownObjects_le {e e' : Endpoint V} {object : Object} {sender : Side}
    (h : Endpoint.Accepts object sender e e') :
    ownObjects e.phase + (if sender = .allocator then 1 else 0) ≤ ownObjects e'.phase := by
  cases h with
  | accountSelect _ _ hsender hphase =>
    subst hsender
    simp [Endpoint.accept, hphase, ownObjects]
  | sentOffer _ _ _ hpre =>
    cases hphase : e.phase <;> simp [hphase, preOffer] at hpre <;>
      cases sender <;> simp [Endpoint.accept, ownObjects]
  | receivedOffer _ _ _ hpre =>
    cases hphase : e.phase <;> simp [hphase, preOffer] at hpre <;>
      cases sender <;> simp [Endpoint.accept, ownObjects]
  | successor v next hsender hsucceeds =>
    have hstep := hsucceeds.step
    have hopen := hsucceeds.open_
    show _ ≤ ownObjects next
    cases hphase : e.phase <;> cases hkind : object.kind <;> cases sender <;>
      simp_all [nextPhase, validSender, ownObjects] <;> subst hstep <;> simp

theorem Endpoint.Accepts.intent_some {e e' : Endpoint V} {object : Object} {sender : Side}
    (h : Endpoint.Accepts object sender e e')
    (hsome : e.intentDigest.isSome = true ∨ sender = .allocator) :
    e'.intentDigest.isSome = true := by
  cases h with
  | accountSelect hselect _ hsender hphase hnone =>
    subst hsender
    rcases hsome with hsome | hside
    · simp [Endpoint.accept, hselect, hsome]
    · simp at hside
  | sentOffer => simp [Endpoint.accept]
  | receivedOffer hoffer =>
    cases hintent : e.intentDigest <;> simp [Endpoint.accept, hintent, hoffer]
  | successor v next _ hsucceeds => simp [Endpoint.accept, hsucceeds.intent]

theorem ciphertext_length (c : SecureChannel) (counter : UInt64) (object : Object) :
    16 < (c.ciphertext counter object.bytes).length ∧
      (c.ciphertext counter object.bytes).length ≤ 64576 := by
  have hlen := object.bytes_length_le
  have hpos := object.bytes_length
  have hcap : capacity object.kind ≤ 64512 := by cases object.kind <;> decide
  rw [SecureChannel.ciphertext, Primitives.encrypt_length]
  omega

namespace Established

omit [Primitives] in
theorem checkedSucc64_le {n : UInt64} {m : UInt8} (h : n.toNat + 2 ≤ m.toNat) :
    ∃ next, checkedSucc64 n = some next ∧ next.toNat = n.toNat + 1 := by
  have hm := m.toNat_lt
  have hnext : (n + 1).toNat = n.toNat + 1 := by
    rw [UInt64.toNat_add]
    simp only [UInt64.reduceToNat]
    omega
  exact ⟨n + 1, checkedSucc64_eq_some.mpr hnext, hnext⟩

variable [BodyVerifier V]

theorem Bounded.prepared {s s' : Established V} {object : Object} {frame : Frame}
    (h : s.Bounded) (hside : s.endpoint.side = .allocator)
    (hprepare : prepareOutbound object s = .ok frame s') : s'.Bounded := by
  obtain ⟨-, ⟨-, -, rfl⟩ | ⟨-, -, endpoint, channel, relay, hsend, hseal, hcache, rfl⟩⟩ :=
    prepareOutbound_eq_ok.mp hprepare
  · exact h
  obtain ⟨-, counter, hcounter, rfl, rfl⟩ := SecureChannel.sealFrame_eq_ok.mp hseal
  obtain ⟨-, -, next, hnext, rfl⟩ := RelayState.cacheApplicationFrame_eq_ok.mp hcache
  have haccepts := Endpoint.send_advanced hsend
  rw [hside] at haccepts
  have hphase := haccepts.ownObjects_le
  rw [if_pos rfl] at hphase
  have hlocal := h.localSequence
  rw [checkedSucc_eq_some] at hnext
  obtain ⟨n, hn, hle⟩ := h.sendCounter
  obtain rfl := Option.some.inj (hn.symm.trans hcounter)
  obtain ⟨n', hn', hsucc⟩ := checkedSucc64_le hle.le
  refine ⟨?_, ⟨n', hn', ?_⟩, h.receiveCounter, ?_, fun _ => haccepts.intent_some (.inr rfl)⟩
  · dsimp only
    omega
  · dsimp only
    omega
  · rintro f hf
    obtain rfl := Option.some.inj hf
    exact ⟨_, _, _, rfl, ciphertext_length _ _ object⟩

theorem Bounded.opened {s s' : Established V} {object : Object} {frame : Frame} {peerSeq : UInt8}
    (h : s.Bounded)
    (hopen : AllocatorSession.openPeerObject peerSeq frame s = .ok object s') : s'.Bounded := by
  obtain ⟨relay, plaintext, channel, advance, endpoint, haccept, hplain, -, hreceive, rfl⟩ :=
    AllocatorSession.openPeerObject_eq_ok.mp hopen
  obtain ⟨rfl, next, hnext, rfl⟩ := RelayState.acceptPeerSequence_eq_ok.mp haccept
  obtain ⟨-, counter, ciphertext, -, hcounter, -, -, rfl⟩ :=
    SecureChannel.openFrame_eq_ok.mp hplain
  rw [checkedSucc_eq_some] at hnext
  obtain ⟨n, hn, hle⟩ := h.receiveCounter
  obtain rfl := Option.some.inj (hn.symm.trans hcounter)
  obtain ⟨n', hn', hsucc⟩ := checkedSucc64_le hle
  have hreceived : ∃ m, checkedSucc64 n = some m ∧ m.toNat + 2 ≤ next.toNat :=
    ⟨n', hn', by omega⟩
  rcases Endpoint.receive_ok hreceive with ⟨-, rfl⟩ | haccepts
  · exact ⟨h.localSequence, h.sendCounter, hreceived, h.cached, h.intent⟩
  · have hphase := haccepts.ownObjects_le
    have hlocal := h.localSequence
    refine ⟨?_, h.sendCounter, hreceived, h.cached, fun hcached =>
      haccepts.intent_some (.inl (h.intent hcached))⟩
    dsimp only
    omega

end Established

namespace AllocatorSession
open AllocatorState

variable [BodyVerifier V]

omit [BodyVerifier V] in
theorem peerFinished_bounded {b b' : Bootstrap} {peerSeq : UInt8} {frame : Frame} {waiting : Bool}
    (hphase : b.phase = .finishedSent) (hs : b.Bounded)
    (h : AllocatorSession.peerFinished peerSeq frame b = .ok waiting b') : b'.Bounded := by
  obtain ⟨_, haccept, -, -, -, -, rfl⟩ := peerFinished_eq_ok.mp h
  obtain ⟨rfl, _, hnext, rfl⟩ := RelayState.acceptPeerSequence_eq_ok.mp haccept
  rw [checkedSucc_eq_some] at hnext
  refine ⟨hs.localSequence, ?_, hs.unshared, hs.shared, fun hne => absurd hphase hne⟩
  have hseen := hs.peerSequence
  simp only [hphase, seenFrames, Option.isSome_some, if_true] at hseen ⊢
  split_ifs at hseen <;> omega

theorem Transition.bounded {s s₁ : AllocatorSession V} {cause : Cause}
    {after : List AllocatorEffect} {mode : AllocatorMode} {profileDigest : Octets 32}
    (h : Transition s cause s₁ after) (hcoherent : s.state.Coherent mode profileDigest)
    (hs : s.state.Bounded) : s₁.state.Bounded := by
  cases h with
  | allocation _ _ _ hnew =>
    obtain rfl := Bootstrap.new_eq_ok hnew
    exact ⟨rfl, Nat.zero_le _, fun _ => rfl, fun hpos => absurd hpos (by simp [sentFrames]),
      fun _ => rfl⟩
  | shared hstate hphase _ _ hshare =>
    rw [hstate] at hs
    obtain ⟨relay, relay', _, haccept, hqueue, -, -, -, -, -, rfl⟩ := firstShare_eq_ok.mp hshare
    obtain ⟨-, _, hpeer, rfl⟩ := RelayState.acceptPeerSequence_eq_ok.mp haccept
    obtain ⟨-, -, -, next, hnext, rfl⟩ := RelayState.queueBootstrapFrame_eq_ok.mp hqueue
    rw [checkedSucc_eq_some] at hnext hpeer
    have hlocal := hs.localSequence
    simp only [hphase, sentFrames] at hlocal
    dsimp only at hnext
    refine ⟨?_, ?_, (by intros; contradiction), fun _ => rfl, fun _ => hs.unfinished
      (by simp [hphase])⟩
    · simp only [sentFrames]
      omega
    · simp only [seenFrames]
      omega
  | shareAcknowledged hstate hphase hfinished =>
    rw [hstate] at hs
    obtain ⟨_, _, _, hack, hprepare, hqueue, rfl⟩ := finishedNext_eq_ok.mp hfinished
    obtain ⟨-, -, -, rfl⟩ := RelayState.acknowledgeBootstrapFrame_eq_ok.mp hack
    obtain ⟨-, _, _, _, _, _, _, -, -, -, -, -, -, -, rfl⟩ :=
      Bootstrap.prepareFinished_eq_ok.mp hprepare
    obtain ⟨-, -, -, next, hnext, rfl⟩ := RelayState.queueBootstrapFrame_eq_ok.mp hqueue
    rw [checkedSucc_eq_some] at hnext
    have hlocal := hs.localSequence
    have hseen := hs.peerSequence
    have hnone := hs.unfinished (by simp [hphase])
    simp only [hphase, sentFrames, seenFrames] at hlocal hseen
    dsimp only at hnext
    refine ⟨?_, ?_, (by intros; contradiction), fun _ => hs.shared (by simp [hphase, sentFrames]),
      fun hne => absurd rfl hne⟩
    · simp only [sentFrames]
      omega
    · simpa [seenFrames, hnone] using hseen
  | finishedAcknowledged hstate _ hack =>
    rw [hstate] at hs
    obtain ⟨_, hrelay, -, rfl⟩ := finishedAcknowledged_eq_ok.mp hack
    obtain ⟨-, -, -, rfl⟩ := RelayState.acknowledgeBootstrapFrame_eq_ok.mp hrelay
    exact ⟨hs.localSequence, hs.peerSequence, hs.unshared, hs.shared, hs.unfinished⟩
  | peerFinished hstate hphase _ hpeer =>
    rw [hstate] at hs
    exact peerFinished_bounded hphase hs hpeer
  | @established _ b b' frame channel relay v ack hstate hphase harrived hfinished hconfirm =>
    rw [hstate] at hs hcoherent
    have hcached := hcoherent.1.uncached
    obtain ⟨⟨hlocal, hseen, -, -, -⟩, hphase', hnone⟩ : b'.Bounded ∧ b'.phase = .finishedSent ∧
        b'.relay.cachedOutbound = none := by
      rcases harrived with ⟨-, _, -, hack⟩ | ⟨_, _, _, _, -, -, -, -, hpeer⟩
      · obtain ⟨_, hrelay, -, rfl⟩ := finishedAcknowledged_eq_ok.mp hack
        obtain ⟨-, -, -, rfl⟩ := RelayState.acknowledgeBootstrapFrame_eq_ok.mp hrelay
        exact ⟨⟨hs.localSequence, hs.peerSequence, hs.unshared, hs.shared, hs.unfinished⟩, hphase,
          hcached⟩
      · have hbounded := peerFinished_bounded hphase hs hpeer
        obtain ⟨_, haccept, -, -, -, -, rfl⟩ := peerFinished_eq_ok.mp hpeer
        obtain ⟨-, _, -, rfl⟩ := RelayState.acceptPeerSequence_eq_ok.mp haccept
        exact ⟨hbounded, hphase, hcached⟩
    simp only [hphase', hfinished, sentFrames, seenFrames, Option.isSome_some, if_true]
      at hlocal hseen
    obtain ⟨-, rfl, pending, -, hconfirm⟩ := Bootstrap.confirm_eq_ok.mp hconfirm
    obtain ⟨-, -, -, hsend, hreceive⟩ := PendingChannel.confirm_eq_ok hconfirm
    exact ⟨hlocal.le, ⟨0, hsend, hlocal.symm⟩, ⟨0, hreceive, hseen⟩, by simp [hnone],
      by simp [hnone]⟩
  | sent hstate hprepare =>
    rw [hstate] at hs hcoherent
    exact hs.prepared hcoherent.2.1 hprepare
  | received hstate _ hopen =>
    rw [hstate] at hs
    exact hs.opened hopen
  | acknowledged hstate hack =>
    rw [hstate] at hs
    obtain ⟨-, rfl⟩ := RelayState.acknowledgeApplicationFrame_eq_ok.mp hack
    exact ⟨hs.localSequence, hs.sendCounter, hs.receiveCounter, by simp, by simp⟩

theorem Seals.settled {key : Octets 32} {now generation : UInt64} {nonce : Octets 12}
    {checkpoint carrier : Bytes} {state state' : AllocatorState V}
    (h : Seals key now nonce state generation checkpoint carrier state')
    (hstate : state.Bounded) : state'.Settled := by
  cases h with
  | bootstrap hseal =>
    obtain ⟨-, -, -, rfl⟩ := Bootstrap.sealCheckpoint_eq_ok.mp hseal
    exact ⟨hstate.localSequence, hstate.peerSequence, hstate.unshared, hstate.shared,
      hstate.unfinished⟩
  | established hseal =>
    obtain ⟨-, hphase, -, -, rfl⟩ := Endpoint.sealCheckpoint_eq_ok.mp hseal
    refine ⟨⟨hstate.localSequence, hstate.sendCounter, hstate.receiveCounter, hstate.cached,
      hstate.intent⟩, fun hterminal => ((validateCheckpointPhase_ok hphase).1 hterminal).2⟩

/-- Bounds and settled endings along every run with crashes. -/
theorem settled_invariant (host : AllocatorHost) :
    StateInvariant (V := V) host (fun _ _ => True) Bounded Settled where
  awaitWelcome := trivial
  awaitAllocation := trivial
  moved hcoherent hsettled _ _ htransition := htransition.bounded hcoherent hsettled.bounded
  sealed_ hseals hbounded := hseals.settled hbounded
  resumed := by
    rintro state state' hstate hresumes
    cases hresumes with
    | bootstrap => exact hstate
    | established =>
      obtain ⟨hbounded, hreceipt⟩ := hstate
      refine ⟨⟨hbounded.localSequence, hbounded.sendCounter, hbounded.receiveCounter,
        hbounded.cached, hbounded.intent⟩, fun hterminal => ?_⟩
      rw [← hreceipt hterminal]
      unfold Endpoint.receiptReleased Established.recovered
      cases (Established.endpoint _).last <;> rfl

end AllocatorSession

/-! ### Room in the next checkpoint -/

theorem Established.encodeInner_ne_nil [BodyVerifier V] {e : Established V} {generation : UInt64} {nonce : Octets 12}
    {plaintext : Bytes} (h : encodeInner e generation nonce = .ok plaintext) : plaintext ≠ [] := by
  rintro rfl
  simp only [encodeInner, Calls.except_bind_eq_ok, Except.ok.injEq] at h
  obtain ⟨_, -, _, -, _, -, _, -, _, -, hnil⟩ := h
  simp at hnil

/-- A plaintext within its bound is never refused for its size. -/
theorem Endpoint.sealCheckpoint_not_size [BodyVerifier V] {channel : SecureChannel} {relay : RelayState}
    {wrappingKey : Octets 32} {generation now : UInt64} {expiry : Option UInt64}
    {nonce : Octets 12} {e e' : Endpoint V} {plaintext : Bytes}
    (hencode : encodeInner ⟨e, channel, relay⟩ generation nonce = .ok plaintext)
    (hlength : plaintext.length ≤ maxInner) :
    Endpoint.sealCheckpoint channel relay wrappingKey generation expiry nonce now e ≠
      .error .size e' := by
  have hpos := Established.encodeInner_ne_nil hencode
  obtain ⟨checkpoint, hseal⟩ := sealCheckpointPlaintext_ok e.side e.carrier wrappingKey generation
    expiry nonce hpos hlength
  have hphase : validateCheckpointPhase e.side e.phase e.receiptReleased expiry
      e.carrier.relayExpiresAt now ≠ .error .size := by
    unfold validateCheckpointPhase validateExpiry
    cases e.side <;> cases expiry <;> dsimp only <;> split_ifs <;> simp
  intro herror
  unfold Endpoint.sealCheckpoint at herror
  rw [Call.run_bind (Call.run_get e)] at herror
  by_cases hside : channel.localSide = e.side
  swap
  · simp [hside] at herror
  rw [if_neg (by simpa using hside), Call.bind_eq_error] at herror
  rcases herror with h | ⟨_, _, -, herror⟩
  · exact hphase (Call.ofExcept_eq_error.mp h).1
  split_ifs at herror
  · simp at herror
  · rw [hencode, Call.run_bind (Call.run_ofExcept_ok _ _), hseal,
      Call.run_bind (Call.run_ofExcept_ok _ _)] at herror
    cases herror

namespace Established

/-- The octets a checkpoint spends on the latest object. -/
def keptOctets (e : Established V) : ℕ :=
  e.endpoint.last.elim 0 fun last =>
    67 + (lastBytes e.endpoint.side e.relay last).elim 0 fun bytes => 4 + bytes.length

/-- The octets a checkpoint spends on the cached frame. -/
def cachedOctets (e : Established V) : ℕ :=
  e.relay.cachedOutbound.elim 0 fun frame => 4 + (toCanonicalVec (.map frame.entries)).length

/-- A claimant object kept beside a cached frame leaves room for the carrier. -/
def Roomy (e : Established V) : Prop :=
  ∀ last ∈ e.endpoint.last, last.sender = .claimant → ∀ bytes ∈ last.bytes,
    ∀ frame ∈ e.relay.cachedOutbound, ∀ body, encodeFrame frame = .ok body →
      (encodeCarrier e.endpoint.carrier).length + bytes.length + body.length ≤ 69206

variable [BodyVerifier V]

/-- The next checkpoint of this state, under the next generation, a fresh nonce
and a running clock, is not too large. -/
def Fits (e : Established V) : Prop :=
  let generation := saturatingSucc e.endpoint.checkpointGeneration
  let expiry := e.endpoint.carrier.relayExpiresAt
  (∀ nonce, ∃ plaintext, encodeInner e generation nonce = .ok plaintext ∧
    plaintext.length ≤ 69616) ∧
  ∀ wrappingKey nonce now endpoint, e.endpoint.checkpointNonce ≠ some nonce → now < expiry →
    Endpoint.sealCheckpoint e.channel e.relay wrappingKey generation (some expiry) nonce now
      e.endpoint ≠ .error .size endpoint

omit [Primitives] [BodyVerifier V] in
theorem appendOptionalBytes_length (value : Option Bytes)
    (h : ∀ bytes ∈ value, bytes.length < 2 ^ 32) : ∃ bytes, appendOptionalBytes value = .ok bytes ∧
      bytes.length = 1 + value.elim 0 fun bytes => 4 + bytes.length := by
  cases value with
  | none => exact ⟨_, rfl, rfl⟩
  | some bytes =>
    have happend := appendBytes_eq_ok.mpr ⟨h bytes rfl, rfl⟩
    refine ⟨_, by rw [appendOptionalBytes, happend, Calls.ok_bind], ?_⟩
    simp only [List.length_cons, List.length_append, beBytes_length, Option.elim_some]
    omega

omit [BodyVerifier V] in
theorem appendLast_length {e : Established V}
    (h : ∀ last ∈ e.endpoint.last, ∀ bytes ∈ last.bytes, bytes.length < 2 ^ 32) :
    ∃ bytes, appendLast e.endpoint.side e.relay e.endpoint.last = .ok bytes ∧
      bytes.length = 1 + e.keptOctets := by
  unfold keptOctets
  cases hlast : e.endpoint.last with
  | none => exact ⟨_, rfl, rfl⟩
  | some last =>
    obtain ⟨bytes, hbytes, hlength⟩ := appendOptionalBytes_length
      (lastBytes e.endpoint.side e.relay last)
      fun bytes hbytes => h last hlast bytes (Option.mem_filter_iff.mp hbytes).1
    refine ⟨_, by rw [appendLast, hbytes, Calls.ok_bind], ?_⟩
    simp only [List.length_append, List.length_cons, List.length_nil, Octets.length_val, hlength,
      Option.elim_some]
    omega

omit [BodyVerifier V] in
theorem appendFrame_length {e : Established V} (h : e.Bounded) :
    ∃ bytes, appendFrame e.relay.cachedOutbound = .ok bytes ∧
      bytes.length = 1 + e.cachedOctets ∧ e.cachedOctets ≤ 64638 := by
  have hcached := h.cached
  unfold cachedOctets
  cases hframe : e.relay.cachedOutbound with
  | none => exact ⟨_, rfl, rfl, by simp⟩
  | some frame =>
    obtain ⟨hencode, -, hle⟩ := (hcached frame hframe).encoded
    have happend := appendBytes_eq_ok.mpr ⟨(by omega :
      (toCanonicalVec (.map frame.entries)).length < 2 ^ 32), rfl⟩
    refine ⟨_, by rw [appendFrame, hencode, Calls.ok_bind, happend, Calls.ok_bind], ?_, ?_⟩
    · simp only [List.length_cons, List.length_append, beBytes_length, Option.elim_some]
      omega
    · simp only [Option.elim_some]
      omega

/-- The plaintext of a checkpoint with no verifier state, item by item. -/
theorem encodeInner_length {e : Established V} (h : e.Bounded) (hcoherent : e.Coherent)
    (hempty : ∀ v : V, BodyVerifier.checkpointState v = .ok []) (generation : UInt64)
    (nonce : Octets 12) :
    ∃ plaintext, encodeInner e generation nonce = .ok plaintext ∧
      plaintext.length = 302 + (encodeCarrier e.endpoint.carrier).length +
        (if e.endpoint.intentDigest.isSome then 33 else 1) + e.keptOctets + e.cachedOctets := by
  have hcarrier := appendBytes_eq_ok.mpr ⟨(by
    have := Carrier.encodeCarrier_length_le e.endpoint.carrier
    omega : (encodeCarrier e.endpoint.carrier).length < 2 ^ 32), rfl⟩
  obtain ⟨last, hlast, hlastLength⟩ := appendLast_length (e := e) fun last hlast bytes hbytes => by
    obtain ⟨object, rfl, -⟩ := hcoherent.sound.faithful last hlast bytes hbytes
    have hlen := object.bytes_length_le
    have hcap : capacity object.kind ≤ 64512 := by cases object.kind <;> decide
    omega
  obtain ⟨frame, hframe, hframeLength, -⟩ := appendFrame_length h
  obtain ⟨send, hsend, -⟩ := h.sendCounter
  obtain ⟨receive, hreceive, -⟩ := h.receiveCounter
  refine ⟨_, by
    rw [encodeInner, hcarrier, Calls.ok_bind, hlast, Calls.ok_bind, hempty, Calls.ok_bind,
      appendBytes_eq_ok.mpr ⟨(by decide : ([] : Bytes).length < 2 ^ 32), rfl⟩, Calls.ok_bind,
      appendRelay, hframe, Calls.ok_bind, Calls.ok_bind], ?_⟩
  have hdomain : innerDomain.length = 31 := by decide
  have hintent : (optional Subtype.val e.endpoint.intentDigest).length =
      if e.endpoint.intentDigest.isSome then 33 else 1 := by
    cases e.endpoint.intentDigest with
    | none => rfl
    | some digest => simp [optional]
  simp only [List.length_append, List.length_cons, List.length_nil, Octets.length_val,
    beBytes_length, appendChannel, counterBytes, hsend, hreceive, optional, hdomain, hlastLength,
    hframeLength] at hintent ⊢
  rw [hintent]
  omega

omit [BodyVerifier V] in
/-- What the latest object costs: nothing for an own object behind a cached frame,
at most one object otherwise. -/
theorem keptOctets_le {e : Established V} (hcoherent : e.Coherent) : e.keptOctets ≤ 64631 := by
  unfold keptOctets
  cases hlast : e.endpoint.last with
  | none => simp
  | some last =>
    rw [Option.elim_some]
    cases hbytes : lastBytes e.endpoint.side e.relay last with
    | none => simp
    | some bytes =>
      obtain ⟨object, rfl, -⟩ := hcoherent.sound.faithful last hlast bytes
        (Option.mem_filter_iff.mp hbytes).1
      have hlen := object.bytes_length_le
      have hcap : capacity object.kind ≤ 64512 := by cases object.kind <;> decide
      rw [Option.elim_some]
      omega

omit [BodyVerifier V] in
theorem roomy_iff {e : Established V} (h : e.Bounded) (hcoherent : e.Coherent)
    (hside : e.endpoint.side = .allocator) :
    e.Roomy ↔ 302 + (encodeCarrier e.endpoint.carrier).length +
      (if e.endpoint.intentDigest.isSome then 33 else 1) + e.keptOctets + e.cachedOctets ≤ 69616 := by
  have hcarrier := Carrier.encodeCarrier_length_le e.endpoint.carrier
  have hkept := keptOctets_le hcoherent
  obtain ⟨-, -, -, hcachedLength⟩ := appendFrame_length h
  -- only a claimant object beside a cached frame can be too much
  by_cases hboth : ∃ last ∈ e.endpoint.last, last.sender = .claimant ∧ ∃ bytes ∈ last.bytes,
      ∃ frame, e.relay.cachedOutbound = some frame
  · obtain ⟨last, hlast, hsender, bytes, hbytes, frame, hframe⟩ := hboth
    have hencode := Frame.encodeFrame_ok (h.cached frame hframe).admissible
    have hkeptEq : e.keptOctets = 71 + bytes.length := by
      have hkeeps : lastBytes e.endpoint.side e.relay last = some bytes := by
        rw [lastBytes, hbytes, hsender, hside]
        rfl
      rw [keptOctets, hlast, Option.elim_some, hkeeps, Option.elim_some]
      omega
    have hcachedEq : e.cachedOctets = 4 + (toCanonicalVec (.map frame.entries)).length := by
      rw [cachedOctets, hframe, Option.elim_some]
    rw [hkeptEq, hcachedEq, if_pos (h.intent (by rw [hframe]; rfl))]
    constructor
    · intro hroomy
      have := hroomy last hlast hsender bytes hbytes frame hframe _ hencode
      omega
    · rintro hfits last' hlast' - bytes' hbytes' frame' hframe' body hbody
      obtain rfl := Option.some.inj (hlast'.symm.trans hlast)
      obtain rfl := Option.some.inj (hbytes'.symm.trans hbytes)
      obtain rfl := Option.some.inj (hframe'.symm.trans hframe)
      obtain rfl := Except.ok.inj (hbody.symm.trans hencode)
      omega
  · have halone : e.keptOctets + e.cachedOctets ≤ 64709 := by
      unfold keptOctets cachedOctets at *
      cases hlast : e.endpoint.last with
      | none =>
        simp only [hlast, Option.elim_none] at *
        omega
      | some last =>
        cases hframe : e.relay.cachedOutbound with
        | none =>
          simp only [hlast, hframe, Option.elim_none] at *
          omega
        | some frame =>
          have hdropped : lastBytes e.endpoint.side e.relay last = none := by
            rw [lastBytes, Option.filter_eq_none_iff]
            intro bytes hbytes
            have hown : last.sender ≠ .claimant := fun hsender =>
              hboth ⟨last, hlast, hsender, bytes, hbytes, frame, hframe⟩
            cases hsender : last.sender with
            | claimant => exact absurd hsender hown
            | allocator => simp [hside, hframe]
          simp only [hlast, hframe, hdropped, Option.elim_some, Option.elim_none] at *
          omega
    refine ⟨fun _ => by split_ifs <;> omega, ?_⟩
    rintro - last hlast hsender bytes hbytes frame hframe
    exact absurd ⟨last, hlast, hsender, bytes, hbytes, frame, hframe⟩ hboth

theorem fits_iff_roomy {e : Established V} (h : e.Bounded) (hcoherent : e.Coherent)
    (hside : e.endpoint.side = .allocator)
    (hempty : ∀ v : V, BodyVerifier.checkpointState v = .ok []) : e.Fits ↔ e.Roomy := by
  rw [roomy_iff h hcoherent hside]
  constructor
  · rintro ⟨hplain, -⟩
    obtain ⟨plaintext, hencode, hle⟩ := hplain (Octets.replicate 12 0)
    obtain ⟨plaintext', hencode', hlength⟩ := encodeInner_length h hcoherent hempty
      (saturatingSucc e.endpoint.checkpointGeneration) (Octets.replicate 12 0)
    obtain rfl := Except.ok.inj (hencode.symm.trans hencode')
    omega
  · intro hle
    have hplain : ∀ nonce, ∃ plaintext, encodeInner e
        (saturatingSucc e.endpoint.checkpointGeneration) nonce = .ok plaintext ∧
        plaintext.length ≤ 69616 := by
      intro nonce
      obtain ⟨plaintext, hencode, hlength⟩ := encodeInner_length h hcoherent hempty
        (saturatingSucc e.endpoint.checkpointGeneration) nonce
      exact ⟨plaintext, hencode, by omega⟩
    refine ⟨hplain, fun wrappingKey nonce now endpoint _ _ => ?_⟩
    obtain ⟨plaintext, hencode, hlength⟩ := hplain nonce
    exact Endpoint.sealCheckpoint_not_size hencode hlength

end Established

namespace AllocatorSession
open AllocatorState

variable [BodyVerifier V]

/-- An established state of a session at rest, or one it moves to and is about to
seal. -/
inductive Presented (s : AllocatorSession V) : Established V → Prop
  | resting {e : Established V} : s.state = .established e → Presented s e
  | moved {s₁ : AllocatorSession V} {cause : Cause} {after : List AllocatorEffect}
      {e : Established V} : Transition s cause s₁ after → s₁.state = .established e →
      Presented s e

theorem Kept.presented {host : AllocatorHost} {s : AllocatorSession V} {e : Established V}
    (h : Kept host Settled s) (he : Presented s e) :
    e.Bounded ∧ e.Coherent ∧ e.endpoint.side = .allocator := by
  cases he with
  | resting hstate =>
    have hrunning := h.running (by simp [hstate])
    have hbounded := hrunning.invariant
    have hcoherent := hrunning.coherent
    rw [hstate] at hbounded hcoherent
    exact ⟨hbounded.1, hcoherent.1, hcoherent.2.1⟩
  | moved htransition hstate =>
    have hrunning := h.running htransition.generation.1
    have hbounded := htransition.bounded hrunning.coherent hrunning.invariant.bounded
    have hcoherent := hrunning.coherent
    rw [← hrunning.mode, ← hrunning.profileDigest] at hcoherent
    obtain ⟨hcoherent, -, -, -⟩ := htransition.coherent hcoherent
    rw [hstate] at hbounded hcoherent
    exact ⟨hbounded, hcoherent.1, hcoherent.2.1⟩

/-- In every session a run with crashes reaches, the next checkpoint of an
established state fits exactly when no claimant object is kept beside a cached
frame that leaves it no room. -/
theorem checkpoint_fits {input : AllocatorInput} {v : V} {s₀ s : AllocatorSession V}
    (hnew : AllocatorSession.new input v = .ok s₀)
    (hempty : ∀ v : V, BodyVerifier.checkpointState v = .ok []) (source : Recovery.Source)
    (acts : List (Recovery.Act AllocatorCall (AllocatorReturn V)))
    (hlive : (Runs.after ((machine input.host).step source) (.start s₀) acts).live = some s)
    {e : Established V} (he : Presented s e) : e.Fits ↔ e.Roomy := by
  have hkept := ((machine_keeps (settled_invariant input.host)).run_free (new_kept trivial hnew)
    source acts).live s hlive
  obtain ⟨hbounded, hcoherent, hside⟩ := hkept.presented he
  exact Established.fits_iff_roomy hbounded hcoherent hside hempty

end AllocatorSession

end CredentialV2

namespace CredentialV2
open Codec Calls

attribute [local instance] Primitives.transparent

namespace AllocatorSession

theorem checkpoint_fits_sample : ∃ (s : AllocatorSession Unit) (e : Established Unit),
    (rehearsed rehearsal).live = some s ∧ Presented s e ∧ e.Fits := by
  have hrun : ((rehearsed rehearsal).live.any fun s => (established? s).any fun e =>
      e.endpoint.last.isNone) = true := by
    decide +kernel
  simp only [Option.any_eq_true, Option.isNone_iff_eq_none] at hrun
  obtain ⟨s, hlive, e, he, hlast⟩ := hrun
  rw [established?_eq_some] at he
  refine ⟨s, e, hlive, .resting he, ?_⟩
  refine (checkpoint_fits new_sample (fun _ => rfl) .confirmed rehearsal hlive
    (.resting he)).mpr ?_
  intro last hmem
  simp [hlast] at hmem

end AllocatorSession
end CredentialV2
end CbclPairing
