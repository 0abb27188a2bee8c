import CbclPairing.CredentialV2.Releases

/-! One invitation, one guess: every share and every Finished value an allocator
ever put comes from one scalar and one claimant share. -/
namespace CbclPairing
namespace CredentialV2
open Codec Codec.Cbor Calls

variable [Primitives] {V : Type}

omit [Primitives] in
/-- The sequence a frame travels under: the share first, then the Finished value,
then the sealed frames by their counters. -/
def Frame.slot : Frame → ℕ
  | .cpace _ => 0
  | .finished _ _ => 1
  | .sealed _ counter _ => counter.toNat + 2

/-- A put in its slot, where a sealed frame seals a plaintext under its counter. -/
def Numbered (p : UInt8 × Bytes) : Prop :=
  ∃ frame, encodeFrame frame = .ok p.2 ∧ p.1.toNat = frame.slot ∧
    ∀ direction counter ciphertext, frame = .sealed direction counter ciphertext →
      ∃ channel plaintext, ciphertext = SecureChannel.ciphertext channel counter plaintext

omit [Primitives] in
theorem encodeFrame_iff {frame : Frame} {body : Bytes} :
    encodeFrame frame = .ok body ↔ decodeFrame body = .ok frame :=
  ⟨Frame.decodeFrame_of_encodeFrame, Frame.encodeFrame_of_decodeFrame⟩

theorem Numbered.slot {p : UInt8 × Bytes} (h : Numbered p) {frame : Frame}
    (hframe : decodeFrame p.2 = .ok frame) : p.1.toNat = frame.slot := by
  obtain ⟨_, hbody, hslot, -⟩ := h
  obtain rfl := Except.ok.inj ((encodeFrame_iff.mp hbody).symm.trans hframe)
  exact hslot

/-- The retained scalar and the retained claimant share account for every share
and every Finished value among some puts. -/
def Bootstrap.Guess (b : Bootstrap) (P : UInt8 × Bytes → Prop) : Prop :=
  ∃ peer scalar state share, b.peerCpace = some peer ∧ b.freshScalar = some scalar ∧
    b.share scalar = .ok (state, share) ∧ ∀ p, P p →
      (p.1 = 0 → encodeFrame share = .ok p.2) ∧
      (p.1 = 1 → ∃ message pending, peer.cpaceMessage = some message ∧
        b.schedule state share peer message = .ok pending ∧
        encodeFrame pending.localFinishedFrame = .ok p.2)

theorem Bootstrap.Guess.mono {b : Bootstrap} {P Q : UInt8 × Bytes → Prop} (h : b.Guess P)
    (hQ : ∀ p, Q p → P p ∨ 2 ≤ p.1.toNat) : b.Guess Q := by
  obtain ⟨peer, scalar, state, share, hpeer, hscalar, hshare, hP⟩ := h
  refine ⟨peer, scalar, state, share, hpeer, hscalar, hshare, fun p hp => ?_⟩
  rcases hQ p hp with hp | hlarge
  · exact hP p hp
  · refine ⟨fun h0 => ?_, fun h1 => ?_⟩
    · simp [h0] at hlarge
    · simp [h1] at hlarge

theorem Bootstrap.share_cpace {b : Bootstrap} {scalar : Octets 32} {state : Cpace.CpaceState}
    {frame : Frame} (h : b.share scalar = .ok (state, frame)) :
    ∃ message, frame = .cpace message := by
  simp only [Bootstrap.share, Calls.except_bind_eq_ok] at h
  obtain ⟨⟨_, message⟩, -, _, hframe, h⟩ := h
  unfold Frame.ofCpace at hframe
  split_ifs at hframe
  obtain rfl := Except.ok.inj hframe
  exact ⟨message, (Prod.mk.inj (Except.ok.inj h)).2.symm⟩

namespace AllocatorState

def nextLocal : AllocatorState V → ℕ
  | .bootstrap b => b.relay.nextLocalSequence.toNat
  | .established e => e.relay.nextLocalSequence.toNat
  | _ => 0

/-- The put a state has cached. -/
def Owes (state : AllocatorState V) (p : UInt8 × Bytes) : Prop :=
  state.Contains (.send (.put p.1 p.2))

def Derived (P : UInt8 × Bytes → Prop) : AllocatorState V → Prop
  | .bootstrap b => (∀ p, ¬P p) ∧ sentFrames b.phase = 0 ∨ b.Guess P
  | .established _ => ∃ b : Bootstrap, b.Guess P
  | _ => ∀ p, ¬P p

theorem Owes.sequence {state : AllocatorState V} {p : UInt8 × Bytes} (h : state.Owes p) :
    p.1.toNat + 1 = state.nextLocal := by
  cases h with
  | bootstrapPut _ hpred => exact (checkedPred_eq_some.mp hpred).symm
  | applicationPut _ hpred => exact (checkedPred_eq_some.mp hpred).symm

theorem Resumes.owes {state state' : AllocatorState V} (h : state.Resumes state')
    (p : UInt8 × Bytes) : state'.Owes p ↔ state.Owes p := by
  cases h with
  | bootstrap => exact Iff.rfl
  | established =>
    constructor
    · rintro (_ | _ | _ | _ | ⟨hawait, hpred, hcached, hbody⟩)
      exact .applicationPut hawait hpred hcached hbody
    · rintro (_ | _ | _ | _ | ⟨hawait, hpred, hcached, hbody⟩)
      exact .applicationPut hawait hpred hcached hbody

/-- The claimant share a state is bound to; an established or ended session takes
no share at all. -/
def Pins : AllocatorState V → Frame → Prop
  | .bootstrap b, peer => b.peerCpace = some peer
  | .established _, _ | .terminal, _ => True
  | _, _ => False

end AllocatorState

namespace AllocatorSession
open AllocatorState AllocatorEffect

/-- One put for each sequence, each numbered by its kind, all from one guess:
what was put and what the state has cached to put. -/
structure Recorded (sent : List (UInt8 × Bytes)) (state : AllocatorState V) : Prop where
  unique : ∀ p p', (p ∈ sent ∨ state.Owes p) → (p' ∈ sent ∨ state.Owes p') → p.1 = p'.1 → p = p'
  numbered : ∀ p, (p ∈ sent ∨ state.Owes p) → Numbered p
  below : ∀ p, (p ∈ sent ∨ state.Owes p) → p.1.toNat < state.nextLocal
  derived : state.Derived fun p => p ∈ sent ∨ state.Owes p

variable [BodyVerifier V]

/-- A transition puts nothing, repeats the cached put, or puts one new frame under
the next sequence. -/
theorem Transition.puts {s s₁ : AllocatorSession V} {cause : Cause} {after : List AllocatorEffect}
    (h : Transition s cause s₁ after) (hbounded : s.state.Bounded) :
    (puts after = [] ∧ s₁.state.nextLocal = s.state.nextLocal) ∨
    (∃ p, puts after = [p] ∧ s.state.Owes p ∧ s₁.state.nextLocal = s.state.nextLocal) ∨
    ∃ p, puts after = [p] ∧ p.1.toNat = s.state.nextLocal ∧
      s₁.state.nextLocal = s.state.nextLocal + 1 ∧ Numbered p := by
  cases h with
  | allocation hstate _ _ hnew =>
    obtain rfl := Bootstrap.new_eq_ok hnew
    rw [hstate]
    exact .inl ⟨rfl, rfl⟩
  | shared hstate hphase _ _ hshare hack hput =>
    rw [hstate] at hbounded ⊢
    obtain ⟨relay, relay', _, haccept, hqueue, -, -, hframe, -, -, rfl⟩ :=
      firstShare_eq_ok.mp hshare
    obtain ⟨-, _, -, rfl⟩ := RelayState.acceptPeerSequence_eq_ok.mp haccept
    obtain ⟨-, -, rfl, next, hnext, rfl⟩ := RelayState.queueBootstrapFrame_eq_ok.mp hqueue
    obtain ⟨-, rfl⟩ := ackFrame_eq_ok.mp hack
    obtain ⟨body, hbody, -, rfl⟩ := putFrame_eq_ok.mp hput
    have hzero := hbounded.localSequence
    rw [hphase] at hzero
    obtain ⟨message, rfl⟩ := Bootstrap.share_cpace hframe
    exact .inr (.inr ⟨_, rfl, rfl, checkedSucc_eq_some.mp hnext,
      _, hbody, hzero, (by intros; contradiction)⟩)
  | shareAcknowledged hstate hphase hfinished hput =>
    rw [hstate] at hbounded ⊢
    obtain ⟨_, _, _, hack, hprepare, hqueue, rfl⟩ := finishedNext_eq_ok.mp hfinished
    obtain ⟨-, -, -, rfl⟩ := RelayState.acknowledgeBootstrapFrame_eq_ok.mp hack
    obtain ⟨-, _, _, _, _, _, pending, -, -, -, -, -, -, rfl, rfl⟩ :=
      Bootstrap.prepareFinished_eq_ok.mp hprepare
    obtain ⟨-, -, rfl, next, hnext, rfl⟩ := RelayState.queueBootstrapFrame_eq_ok.mp hqueue
    obtain ⟨body, hbody, -, rfl⟩ := putFrame_eq_ok.mp hput
    have hone := hbounded.localSequence
    rw [hphase] at hone
    exact .inr (.inr ⟨_, rfl, rfl, checkedSucc_eq_some.mp hnext, _, hbody, hone,
      (by intros; contradiction)⟩)
  | finishedAcknowledged hstate _ hack =>
    obtain ⟨_, hrelay, -, rfl⟩ := finishedAcknowledged_eq_ok.mp hack
    obtain ⟨-, -, -, rfl⟩ := RelayState.acknowledgeBootstrapFrame_eq_ok.mp hrelay
    rw [hstate]
    exact .inl ⟨rfl, rfl⟩
  | peerFinished hstate _ _ hpeer hack =>
    obtain ⟨_, haccept, -, -, -, -, rfl⟩ := peerFinished_eq_ok.mp hpeer
    obtain ⟨-, _, -, rfl⟩ := RelayState.acceptPeerSequence_eq_ok.mp haccept
    obtain ⟨-, rfl⟩ := ackFrame_eq_ok.mp hack
    rw [hstate]
    exact .inl ⟨rfl, rfl⟩
  | established hstate _ harrived _ hconfirm =>
    obtain ⟨-, rfl, -⟩ := Bootstrap.confirm_eq_ok.mp hconfirm
    rw [hstate]
    rcases harrived with ⟨rfl, _, -, hack⟩ | ⟨_, _, _, _, -, -, rfl, hack, hpeer⟩
    · obtain ⟨_, hrelay, -, rfl⟩ := finishedAcknowledged_eq_ok.mp hack
      obtain ⟨-, -, -, rfl⟩ := RelayState.acknowledgeBootstrapFrame_eq_ok.mp hrelay
      exact .inl ⟨rfl, rfl⟩
    · obtain ⟨_, haccept, -, -, -, -, rfl⟩ := peerFinished_eq_ok.mp hpeer
      obtain ⟨-, _, -, rfl⟩ := RelayState.acceptPeerSequence_eq_ok.mp haccept
      obtain ⟨-, rfl⟩ := ackFrame_eq_ok.mp hack
      exact .inl ⟨rfl, rfl⟩
  | sent hstate hprepare hsequence hput =>
    rw [hstate] at hbounded ⊢
    obtain ⟨body, hbody, -, rfl⟩ := putFrame_eq_ok.mp hput
    obtain ⟨hawait, -, hpred⟩ := RelayState.cachedApplicationSequence_eq_ok.mp hsequence
    obtain ⟨-, ⟨hcached, -, rfl⟩ | ⟨-, -, endpoint, channel, relay, -, hseal, hcache, rfl⟩⟩ :=
      Established.prepareOutbound_eq_ok.mp hprepare
    · exact .inr (.inl ⟨_, rfl, .applicationPut hawait hpred hcached hbody, rfl⟩)
    · obtain ⟨-, counter, hcounter, rfl, rfl⟩ := SecureChannel.sealFrame_eq_ok.mp hseal
      obtain ⟨-, -, next, hnext, rfl⟩ := RelayState.cacheApplicationFrame_eq_ok.mp hcache
      rw [checkedSucc_eq_some] at hnext
      rw [checkedPred_eq_some] at hpred
      obtain ⟨n, hn, hsum⟩ := hbounded.sendCounter
      obtain rfl := Option.some.inj (hn.symm.trans hcounter)
      have hlocal := Nat.succ.inj (hpred.symm.trans hnext)
      refine .inr (.inr ⟨_, rfl, hlocal, hnext, _, hbody, hlocal.trans hsum.symm, ?_⟩)
      rintro _ _ _ ⟨⟩
      exact ⟨_, _, rfl⟩
  | received hstate _ hopen hack =>
    obtain ⟨relay, _, _, _, _, haccept, -, -, -, rfl⟩ := openPeerObject_eq_ok.mp hopen
    obtain ⟨-, _, -, rfl⟩ := RelayState.acceptPeerSequence_eq_ok.mp haccept
    obtain ⟨-, rfl⟩ := ackFrame_eq_ok.mp hack
    rw [hstate]
    exact .inl ⟨rfl, rfl⟩
  | acknowledged hstate hack =>
    obtain ⟨-, rfl⟩ := RelayState.acknowledgeApplicationFrame_eq_ok.mp hack
    rw [hstate]
    exact .inl ⟨rfl, rfl⟩

/-- What the moved state has cached was cached before or is put by the move. -/
theorem Transition.owes {s s₁ : AllocatorSession V} {cause : Cause} {after : List AllocatorEffect}
    (h : Transition s cause s₁ after) {p : UInt8 × Bytes} (hp : s₁.state.Owes p) :
    p ∈ AllocatorEffect.puts after ∨ s.state.Owes p := by
  rcases h.transfer (.send (.put p.1 p.2)) trivial hp with hafter | hbefore
  · exact .inl (List.mem_filterMap.mpr ⟨_, hafter, rfl⟩)
  · exact .inr hbefore

theorem Transition.derived {s s₁ : AllocatorSession V} {cause : Cause}
    {after : List AllocatorEffect} (h : Transition s cause s₁ after) (hbounded : s.state.Bounded)
    {P Q : UInt8 × Bytes → Prop} (hP : s.state.Derived P) (howes : ∀ p, s.state.Owes p → P p)
    (hQ : ∀ p, Q p → P p ∨ p ∈ AllocatorEffect.puts after) : s₁.state.Derived Q := by
  cases h with
  | allocation hstate _ _ hnew =>
    obtain rfl := Bootstrap.new_eq_ok hnew
    rw [hstate] at hP
    refine .inl ⟨fun p hp => ?_, rfl⟩
    rcases hQ p hp with hp | hp
    · exact hP p hp
    · cases hp
  | shared hstate hphase _ _ hshare hack hput =>
    rw [hstate] at hbounded hP
    have hunshared := hbounded.unshared hphase
    obtain ⟨relay, relay', cpace, haccept, hqueue, -, -, hframe, -, -, rfl⟩ :=
      firstShare_eq_ok.mp hshare
    obtain ⟨-, _, -, rfl⟩ := RelayState.acceptPeerSequence_eq_ok.mp haccept
    obtain ⟨-, -, rfl, next, hnext, rfl⟩ := RelayState.queueBootstrapFrame_eq_ok.mp hqueue
    obtain ⟨-, rfl⟩ := ackFrame_eq_ok.mp hack
    obtain ⟨body, hbody, -, rfl⟩ := putFrame_eq_ok.mp hput
    have hzero := hbounded.localSequence
    rw [hphase] at hzero
    refine .inr ⟨_, _, cpace, _, rfl, rfl, hframe, fun p hp => ?_⟩
    rcases hQ p hp with hp | hp
    · rcases hP with ⟨hnone, -⟩ | ⟨peer, _, _, _, hpeer, -⟩
      · exact absurd hp (hnone p)
      · exact absurd (hunshared.symm.trans hpeer) (by simp)
    · obtain rfl := List.mem_singleton.mp hp
      refine ⟨fun _ => hbody, fun hone => ?_⟩
      dsimp only at hone
      simp [hone, sentFrames] at hzero
  | shareAcknowledged hstate hphase hfinished hput =>
    rw [hstate] at hbounded hP
    obtain ⟨_, _, _, hack, hprepare, hqueue, rfl⟩ := finishedNext_eq_ok.mp hfinished
    obtain ⟨-, -, -, rfl⟩ := RelayState.acknowledgeBootstrapFrame_eq_ok.mp hack
    obtain ⟨-, peerFrame, message, _, _, _, pending, hpeer', hmessage, hscalar', hshare', -,
      hschedule, rfl, rfl⟩ := Bootstrap.prepareFinished_eq_ok.mp hprepare
    obtain ⟨-, -, rfl, next, hnext, rfl⟩ := RelayState.queueBootstrapFrame_eq_ok.mp hqueue
    obtain ⟨body, hbody, -, rfl⟩ := putFrame_eq_ok.mp hput
    have hone := hbounded.localSequence
    rw [hphase] at hone
    rcases hP with ⟨-, hzero⟩ | ⟨peer, scalar, state, share, hpeer, hscalar, hshare, hold⟩
    · simp [hphase, sentFrames] at hzero
    obtain rfl := Option.some.inj (hpeer.symm.trans hpeer')
    obtain rfl := Option.some.inj (hscalar.symm.trans hscalar')
    obtain ⟨rfl, rfl⟩ := Prod.mk.inj (Except.ok.inj (hshare.symm.trans hshare'))
    refine .inr ⟨peer, scalar, state, share, hpeer, hscalar, hshare, fun p hp => ?_⟩
    rcases hQ p hp with hp | hp
    · exact hold p hp
    · obtain rfl := List.mem_singleton.mp hp
      refine ⟨fun hzero => ?_, fun _ => ⟨message, pending, hmessage, hschedule, hbody⟩⟩
      dsimp only at hzero
      simp [hzero, sentFrames] at hone
  | finishedAcknowledged hstate hphase hack =>
    rw [hstate] at hP
    obtain ⟨_, -, -, rfl⟩ := finishedAcknowledged_eq_ok.mp hack
    rcases hP with ⟨-, hzero⟩ | hguess
    · simp [hphase, sentFrames] at hzero
    · exact .inr (hguess.mono fun p hp => .inl ((hQ p hp).resolve_right List.not_mem_nil))
  | peerFinished hstate hphase _ hpeer hack =>
    rw [hstate] at hP
    obtain ⟨_, -, -, -, -, -, rfl⟩ := peerFinished_eq_ok.mp hpeer
    obtain ⟨-, rfl⟩ := ackFrame_eq_ok.mp hack
    rcases hP with ⟨-, hzero⟩ | hguess
    · simp [hphase, sentFrames] at hzero
    · exact .inr (hguess.mono fun p hp => .inl ((hQ p hp).resolve_right List.not_mem_nil))
  | @established _ b _ _ _ _ _ _ hstate hphase harrived =>
    rw [hstate] at hP
    rcases hP with ⟨-, hzero⟩ | hguess
    · simp [hphase, sentFrames] at hzero
    refine ⟨b, hguess.mono fun p hp => .inl ((hQ p hp).resolve_right ?_)⟩
    rcases harrived with ⟨rfl, -⟩ | ⟨_, _, _, _, -, -, rfl, hack, -⟩
    · exact List.not_mem_nil
    · obtain ⟨-, rfl⟩ := ackFrame_eq_ok.mp hack
      exact List.not_mem_nil
  | @sent e e' object frame sequence put hstate hprepare hsequence hput =>
    have htransition : Transition s (.object object) _ [put] := .sent hstate hprepare hsequence hput
    rw [hstate] at hP
    obtain ⟨b, hguess⟩ := hP
    refine ⟨b, hguess.mono fun p hp => ?_⟩
    rcases hQ p hp with hp | hp
    · exact .inl hp
    rcases htransition.puts hbounded with ⟨hnone, -⟩ | ⟨p', hput', hcached, -⟩ | ⟨p', hput', hseq, -⟩
    · simp [hnone] at hp
    · obtain rfl := List.mem_singleton.mp (hput' ▸ hp)
      exact .inl (howes p hcached)
    · obtain rfl := List.mem_singleton.mp (hput' ▸ hp)
      rw [hstate] at hbounded hseq
      obtain ⟨n, -, hn⟩ := hbounded.sendCounter
      exact .inr (by rw [hseq, nextLocal, ← hn]; exact Nat.le_add_left 2 _)
  | received hstate _ hopen hack =>
    rw [hstate] at hP
    obtain ⟨-, rfl⟩ := ackFrame_eq_ok.mp hack
    obtain ⟨b, hguess⟩ := hP
    exact ⟨b, hguess.mono fun p hp => .inl ((hQ p hp).resolve_right List.not_mem_nil)⟩
  | acknowledged hstate hack =>
    rw [hstate] at hP
    obtain ⟨b, hguess⟩ := hP
    exact ⟨b, hguess.mono fun p hp => .inl ((hQ p hp).resolve_right List.not_mem_nil)⟩

omit [BodyVerifier V] in
/-- The record only looks at what was put or is cached, and at the sequence. -/
theorem Recorded.congr {sent sent' : List (UInt8 × Bytes)} {state state' : AllocatorState V}
    (h : Recorded sent state)
    (hsame : ∀ p, (p ∈ sent' ∨ state'.Owes p) ↔ (p ∈ sent ∨ state.Owes p))
    (hlocal : state'.nextLocal = state.nextLocal)
    (hderived : ∀ P, state.Derived P → state'.Derived P) : Recorded sent' state' := by
  refine ⟨fun p p' hp hp' => h.unique p p' ((hsame p).mp hp) ((hsame p').mp hp'),
    fun p hp => h.numbered p ((hsame p).mp hp), fun p hp => ?_, ?_⟩
  · rw [hlocal]
    exact h.below p ((hsame p).mp hp)
  · rw [show (fun p => p ∈ sent' ∨ state'.Owes p) = fun p => p ∈ sent ∨ state.Owes p from
      funext fun p => propext (hsame p)]
    exact hderived _ h.derived

theorem Recorded.moved {sent : List (UInt8 × Bytes)} {s s₁ : AllocatorSession V} {cause : Cause}
    {after : List AllocatorEffect} (h : Recorded sent s.state) (hbounded : s.state.Bounded)
    (htransition : Transition s cause s₁ after) :
    Recorded (sent ++ AllocatorEffect.puts after) s₁.state := by
  have hold : ∀ p, (p ∈ sent ++ AllocatorEffect.puts after ∨ s₁.state.Owes p) →
      (p ∈ sent ∨ s.state.Owes p) ∨ p ∈ AllocatorEffect.puts after := by
    rintro p (hp | hp)
    · rcases List.mem_append.mp hp with hp | hp
      · exact .inl (.inl hp)
      · exact .inr hp
    · exact (htransition.owes hp).symm.imp .inr id
  have hderived := htransition.derived hbounded h.derived (fun _ => .inr) hold
  rcases htransition.puts hbounded with ⟨hnone, hlocal⟩ | ⟨q, hq, howes, hlocal⟩ |
    ⟨q, hq, hseq, hlocal, hnumbered⟩
  · have hsame : ∀ p, _ → p ∈ sent ∨ s.state.Owes p := fun p hp =>
      (hold p hp).resolve_right (by simp [hnone])
    exact ⟨fun p p' hp hp' => h.unique p p' (hsame p hp) (hsame p' hp'),
      fun p hp => h.numbered p (hsame p hp), fun p hp => hlocal ▸ h.below p (hsame p hp), hderived⟩
  · have hsame : ∀ p, _ → p ∈ sent ∨ s.state.Owes p := fun p hp =>
      (hold p hp).elim id fun hp => .inr (List.mem_singleton.mp (hq ▸ hp) ▸ howes)
    exact ⟨fun p p' hp hp' => h.unique p p' (hsame p hp) (hsame p' hp'),
      fun p hp => h.numbered p (hsame p hp), fun p hp => hlocal ▸ h.below p (hsame p hp), hderived⟩
  · -- the new put lies above everything before it
    have hnew : ∀ p, _ → (p ∈ sent ∨ s.state.Owes p) ∨ p = q := fun p hp =>
      (hold p hp).imp_right fun hp => List.mem_singleton.mp (hq ▸ hp)
    have habove : ∀ p, (p ∈ sent ∨ s.state.Owes p) → p.1 ≠ q.1 := fun p hp heq => by
      have := h.below p hp
      rw [heq, hseq] at this
      exact lt_irrefl _ this
    refine ⟨fun p p' hp hp' heq => ?_, fun p hp => ?_, fun p hp => ?_, hderived⟩
    · rcases hnew p hp with hp | rfl <;> rcases hnew p' hp' with hp' | rfl
      · exact h.unique p p' hp hp' heq
      · exact absurd heq (habove p hp)
      · exact absurd heq.symm (habove p' hp')
      · rfl
    · rcases hnew p hp with hp | rfl
      · exact h.numbered p hp
      · exact hnumbered
    · rcases hnew p hp with hp | rfl
      · have := h.below p hp
        omega
      · omega

omit [BodyVerifier V] in
theorem recorded_nil {state : AllocatorState V} (hnone : ∀ p, ¬state.Owes p)
    (hderived : ∀ P, (∀ p, ¬P p) → state.Derived P) : Recorded [] state := by
  have hempty : ∀ p, ¬(p ∈ ([] : List (UInt8 × Bytes)) ∨ state.Owes p) := by
    rintro p (hp | hp)
    · cases hp
    · exact hnone p hp
  exact ⟨fun p _ hp => absurd hp (hempty p), fun p hp => absurd hp (hempty p),
    fun p hp => absurd hp (hempty p), hderived _ hempty⟩

theorem recorded_invariant (host : AllocatorHost) :
    HistoryInvariant (V := V) host Recorded where
  awaitWelcome := recorded_nil (fun _ hp => (by cases hp)) fun _ hnone => hnone
  awaitAllocation := recorded_nil (fun _ hp => (by cases hp)) fun _ hnone => hnone
  replayed := by
    intro sent state sequence body h howes
    refine h.congr (fun p => ?_) rfl fun _ hP => hP
    simp only [List.mem_append, List.mem_singleton]
    constructor
    · rintro ((hp | rfl) | hp)
      · exact .inl hp
      · exact .inr howes
      · exact .inr hp
    · rintro (hp | hp)
      · exact .inl (.inl hp)
      · exact .inr hp
  moved _ hsettled h htransition := h.moved hsettled.bounded htransition
  sealed_ := by
    intro sent key now generation nonce checkpoint carrier state state' hseals h
    refine h.congr (fun p => or_congr_right (hseals.contains _)) ?_ ?_
    · cases hseals with
      | bootstrap hseal =>
        obtain ⟨-, -, -, rfl⟩ := Bootstrap.sealCheckpoint_eq_ok.mp hseal
        rfl
      | established => rfl
    · cases hseals with
      | bootstrap hseal =>
        obtain ⟨-, -, -, rfl⟩ := Bootstrap.sealCheckpoint_eq_ok.mp hseal
        exact fun _ hP => hP
      | established => exact fun _ hP => hP
  resumed := by
    intro sent state state' hresumes
    have howes := hresumes.owes
    cases hresumes with
    | bootstrap => exact Iff.rfl
    | established =>
      exact ⟨fun h => h.congr (fun p => or_congr_right (howes p).symm) rfl fun _ hP => hP,
        fun h => h.congr (fun p => or_congr_right (howes p)) rfl fun _ hP => hP⟩

/-! ### One guess per invitation -/

theorem receive_error_terminal {s s' : AllocatorSession V} {input : ServerInput} {now : UInt64}
    {nonce : Octets 12} {e : Error} (hgate : s.persistenceGate = none)
    (h : receive input now nonce s = .error e s') : s'.state = .terminal := by
  unfold receive at h
  rw [Call.run_bind (Call.run_get s), if_neg (by simp [hgate])] at h
  obtain ⟨s'', rfl⟩ := guarded_error h
  rfl

/-- A bound session does not answer another share. -/
theorem receive_other_share {s : AllocatorSession V} {peer : Frame} {body : Bytes} {now : UInt64}
    {nonce : Octets 12} (hmessage : (ServerMessage.frame 0 body).recognised = true)
    (hbounded : s.state.Bounded) (hgate : s.persistenceGate = none) (hpins : s.state.Pins peer)
    (hother : decodeFrame body ≠ .ok peer) :
    ∃ e s', receive (.ok ⟨_, hmessage⟩) now nonce s = .error e s' ∧ s'.state = .terminal := by
  cases hresult : receive (.ok ⟨_, hmessage⟩) now nonce s with
  | error e s' => exact ⟨e, s', rfl, receive_error_terminal hgate hresult⟩
  | ok effects s' =>
    exfalso
    simp only [receive, Call.bind_eq_ok, Call.get_eq_ok, Call.guard_eq_ok, guarded_eq_ok] at hresult
    unfold applyServer at hresult
    simp only [peerFrame, Call.bind_eq_ok, Call.get_eq_ok, Call.ofExcept_eq_ok] at hresult
    obtain ⟨_, _, ⟨rfl, rfl⟩, -, frame, _, ⟨hframe, rfl⟩, _, _, ⟨rfl, rfl⟩, hresult⟩ := hresult
    cases hstate : s.state with
    | established e =>
      rw [hstate] at hbounded
      simp only [hstate, peerApplicationFrame, Call.bind_eq_ok, onEstablished_eq_ok] at hresult
      obtain ⟨_, _, ⟨e₁, _, he, hopen, -⟩, -⟩ := hresult
      obtain rfl := AllocatorState.established.inj he
      obtain ⟨_, _, _, _, _, haccept, -⟩ := openPeerObject_eq_ok.mp hopen
      obtain ⟨hsequence, -⟩ := RelayState.acceptPeerSequence_eq_ok.mp haccept
      obtain ⟨_, -, hle⟩ := hbounded.receiveCounter
      rw [← hsequence] at hle
      simp at hle
    | bootstrap b =>
      rw [hstate] at hpins
      simp only [hstate] at hresult
      rw [if_pos ⟨trivial, by rw [hpins]; rfl⟩, Call.ofExcept_eq_ok] at hresult
      simp only [repeatedShare, Calls.guard_eq_ok, not_not] at hresult
      obtain ⟨⟨-, hsame, -⟩, -⟩ := hresult
      obtain rfl := Option.some.inj (hpins.symm.trans hsame)
      exact hother hframe
    | terminal => simp [hstate] at hresult
    | awaitWelcome => simp [hstate] at hresult
    | awaitAllocation => simp [hstate] at hresult

/-- The record of everything put, in any world of a run with crashes. -/
theorem recorded_run {input : AllocatorInput} {v : V} {s₀ : AllocatorSession V}
    (hnew : AllocatorSession.new input v = .ok s₀)
    (acts : List (Recovery.Act AllocatorCall (AllocatorReturn V))) :
    let sent := AllocatorEffect.puts (Runs.released ((machine input.host).step .confirmed)
      (.start s₀) acts)
    sent = [] ∨ ∃ state : AllocatorState V, Recorded sent state := by
  have htracked := (recorded_invariant input.host).run hnew acts
  cases hconfirmed : (Runs.after ((machine input.host).step .confirmed) (.start s₀)
      acts).confirmed with
  | none => exact .inl (htracked.unconfirmed hconfirmed)
  | some stored =>
    obtain ⟨state, -, hrecorded⟩ := htracked.confirmed stored hconfirmed
    exact .inr ⟨state, hrecorded⟩

omit [BodyVerifier V] in
theorem Recorded.same_slot {sent : List (UInt8 × Bytes)} {state : AllocatorState V}
    (h : Recorded sent state) {p p' : UInt8 × Bytes} (hp : p ∈ sent) (hp' : p' ∈ sent)
    {frame frame' : Frame} (hframe : decodeFrame p.2 = .ok frame)
    (hframe' : decodeFrame p'.2 = .ok frame') (hslot : frame.slot = frame'.slot) : p = p' := by
  refine h.unique p p' (.inl hp) (.inl hp') (UInt8.toNat_inj.mp ?_)
  rw [(h.numbered p (.inl hp)).slot hframe, (h.numbered p' (.inl hp')).slot hframe', hslot]

omit [BodyVerifier V] in
theorem Recorded.guess {sent : List (UInt8 × Bytes)} {state : AllocatorState V}
    (h : Recorded sent state) (hsent : sent ≠ []) : ∃ b : Bootstrap, b.Guess (· ∈ sent) := by
  obtain ⟨p, hp⟩ := List.exists_mem_of_ne_nil sent hsent
  have hderived := h.derived
  have hmono : ∀ b : Bootstrap, (b.Guess fun p => p ∈ sent ∨ state.Owes p) →
      b.Guess (· ∈ sent) := fun b hb => hb.mono fun p hp => .inl (.inl hp)
  cases state with
  | bootstrap b =>
    rcases hderived with ⟨hnone, -⟩ | hguess
    · exact absurd (.inl hp) (hnone p)
    · exact ⟨b, hmono b hguess⟩
  | established e =>
    obtain ⟨b, hguess⟩ := hderived
    exact ⟨b, hmono b hguess⟩
  | _ => exact absurd (.inl hp) (hderived p)

end AllocatorSession

end CredentialV2
namespace CredentialV2
open Codec Calls

attribute [local instance] Primitives.transparent

namespace AllocatorSession

/-- The share is pinned by a confirmed checkpoint, and the next checkpoint waits. -/
def waiting : List SampleAct :=
  allocation ++ pinning ++ [.call (.receive
    (.ok ⟨.acknowledged 0, ServerMessage.recognised_acknowledged_zero⟩) 0 (fill 12 [3]))]

end AllocatorSession
end CredentialV2
end CbclPairing
