import CbclPairing.CredentialV2.Absorbing
import CbclPairing.CredentialV2.ArrivalOrder
import CbclPairing.CredentialV2.ClaimantFailures
import CbclPairing.CredentialV2.ClaimantOrder
import CbclPairing.CredentialV2.ReceiptRuns
import CbclPairing.Recovery

/-! What a claimant session has put under its channel keys, across crashes that each
return to the latest confirmed checkpoint. -/
namespace CbclPairing
namespace CredentialV2
open Codec Codec.Cbor Calls

variable [Primitives] {V : Type}

/-! ### Sealed puts -/

/-- A sealed frame as it is put. -/
structure SealedPut where
  sequence : UInt8
  counter : UInt64
  body : Bytes
  deriving DecidableEq

/-- A sequence or a counter that is put twice is put with the same octets. -/
def Unrepeated (sent : List SealedPut) : Prop :=
  ∀ p ∈ sent, ∀ p' ∈ sent, p.sequence = p'.sequence ∨ p.counter = p'.counter → p = p'

def Frame.counter? : Frame → Option UInt64
  | .sealed _ counter _ => some counter
  | _ => none

namespace ClaimantEffect

def sealedPut? (effect : ClaimantEffect) : Option SealedPut :=
  match effect.put? with
  | none => none
  | some (sequence, body) =>
    match decodeFrame body with
    | .ok frame => frame.counter?.map fun counter => ⟨sequence, counter, body⟩
    | .error _ => none

/-- The sealed frames among some effects, in order. -/
def sealedPuts (effects : List ClaimantEffect) : List SealedPut := effects.filterMap sealedPut?

omit [Primitives] in
theorem sealedPuts_append (effects more : List ClaimantEffect) :
    sealedPuts (effects ++ more) = sealedPuts effects ++ sealedPuts more := List.filterMap_append

omit [Primitives] in
theorem sealedPut?_put {sequence : UInt8} {frame : Frame} {body : Bytes}
    (h : encodeFrame frame = .ok body) : (ClaimantEffect.send (.put sequence body)).sealedPut? =
      frame.counter?.map fun counter => ⟨sequence, counter, body⟩ := by
  have hdecode := Frame.decodeFrame_of_encodeFrame h
  simp only [sealedPut?, put?, hdecode]

omit [Primitives] in
theorem sealedPuts_bare {effects : List ClaimantEffect} (h : ∀ effect ∈ effects, effect.Bare) :
    sealedPuts effects = [] := by
  rw [sealedPuts, List.filterMap_eq_nil_iff]
  intro effect heffect
  obtain ⟨-, hbare⟩ := h effect heffect
  unfold sealedPut?
  cases hput : effect.put? with
  | none => rfl
  | some p =>
    obtain ⟨frame, hbody, hplain⟩ := hbare p hput
    simp only [Frame.decodeFrame_of_encodeFrame hbody]
    cases frame <;> first | rfl | cases hplain

omit [Primitives] in
theorem sealedPuts_putless {effects : List ClaimantEffect}
    (h : ∀ effect ∈ effects, effect.Putless) : sealedPuts effects = [] :=
  sealedPuts_bare fun effect heffect => (h effect heffect).bare

end ClaimantEffect

/-! ### The sending half of an application state -/

namespace Established

/-- The sealed frame a state has cached. -/
def Owes (e : Established V) (p : SealedPut) : Prop :=
  ∃ frame, e.relay.cachedOutbound = some frame ∧ frame.counter? = some p.counter ∧
    e.relay.cachedApplicationSequence = .ok p.sequence ∧ encodeFrame frame = .ok p.body

variable {e e' : Established V} {sent : List SealedPut}

theorem Owes.unique {p p' : SealedPut} (h : e.Owes p) (h' : e.Owes p') : p = p' := by
  obtain ⟨sequence, counter, body⟩ := p
  obtain ⟨sequence', counter', body'⟩ := p'
  obtain ⟨frame, hcached, hcounter, hsequence, hbody⟩ := h
  obtain ⟨frame', hcached', hcounter', hsequence', hbody'⟩ := h'
  obtain rfl := Option.some.inj (hcached.symm.trans hcached')
  obtain rfl := Option.some.inj (hcounter.symm.trans hcounter')
  obtain rfl := Except.ok.inj (hsequence.symm.trans hsequence')
  obtain rfl := Except.ok.inj (hbody.symm.trans hbody')
  rfl

theorem not_owes (h : e.relay.cachedOutbound = none) (p : SealedPut) : ¬e.Owes p := by
  rintro ⟨frame, hcached, -⟩
  cases h.symm.trans hcached

/-- What was put under the channel keys, and what is cached to be put, beside the state:
every number stands for one frame, and both numbers lie below the next ones. -/
structure Spent (sent : List SealedPut) (e : Established V) : Prop where
  unique : ∀ p p', (p ∈ sent ∨ e.Owes p) → (p' ∈ sent ∨ e.Owes p') →
    p.sequence = p'.sequence ∨ p.counter = p'.counter → p = p'
  sequence : ∀ p, (p ∈ sent ∨ e.Owes p) →
    p.sequence.toNat < e.relay.nextLocalSequence.toNat
  counter : ∀ p, (p ∈ sent ∨ e.Owes p) → ∀ n ∈ e.channel.nextSendCounter,
    p.counter.toNat < n.toNat

theorem Spent.unrepeated (h : Spent sent e) : Unrepeated sent := fun p hp p' hp' =>
  h.unique p p' (.inl hp) (.inl hp')

theorem spent_nil (h : e.relay.cachedOutbound = none) : Spent [] e := by
  have hnone : ∀ p, ¬(p ∈ ([] : List SealedPut) ∨ e.Owes p) := by
    rintro p (hp | hp)
    · cases hp
    · exact not_owes h p hp
  exact ⟨fun p _ hp => absurd hp (hnone p), fun p hp => absurd hp (hnone p),
    fun p hp => absurd hp (hnone p)⟩

theorem Spent.mono {sent' : List SealedPut} (h : Spent sent e)
    (hsent : ∀ p ∈ sent', p ∈ sent ∨ e.Owes p) : Spent sent' e := by
  have hsub : ∀ p, (p ∈ sent' ∨ e.Owes p) → p ∈ sent ∨ e.Owes p := fun p hp =>
    hp.elim (hsent p) .inr
  exact ⟨fun p p' hp hp' => h.unique p p' (hsub p hp) (hsub p' hp'),
    fun p hp => h.sequence p (hsub p hp), fun p hp => h.counter p (hsub p hp)⟩

/-- Putting what is cached, again or for the first time. -/
theorem Spent.released {more : List SealedPut} (h : Spent sent e) (hmore : ∀ p ∈ more, e.Owes p) :
    Spent (sent ++ more) e :=
  h.mono fun p hp => (List.mem_append.mp hp).imp id (hmore p)

/-- The two counters do not go back, and what is newly cached has the numbers that
were next. -/
structure Advances (e e' : Established V) : Prop where
  sequence : e.relay.nextLocalSequence.toNat ≤ e'.relay.nextLocalSequence.toNat
  counter : ∀ n' ∈ e'.channel.nextSendCounter, ∃ n ∈ e.channel.nextSendCounter,
    n.toNat ≤ n'.toNat
  owes : ∀ p, e'.Owes p → e.Owes p ∨ p.sequence = e.relay.nextLocalSequence ∧
    e.channel.nextSendCounter = some p.counter ∧
    p.sequence.toNat < e'.relay.nextLocalSequence.toNat ∧
    ∀ n ∈ e'.channel.nextSendCounter, p.counter.toNat < n.toNat

theorem Spent.advances (h : Spent sent e) (hadvances : e.Advances e') : Spent sent e' := by
  have hsplit : ∀ p, (p ∈ sent ∨ e'.Owes p) → (p ∈ sent ∨ e.Owes p) ∨ e'.Owes p ∧
      p.sequence = e.relay.nextLocalSequence ∧ e.channel.nextSendCounter = some p.counter ∧
      p.sequence.toNat < e'.relay.nextLocalSequence.toNat ∧
      ∀ n ∈ e'.channel.nextSendCounter, p.counter.toNat < n.toNat := by
    rintro p (hp | hp)
    · exact .inl (.inl hp)
    · rcases hadvances.owes p hp with hold | hnew
      · exact .inl (.inr hold)
      · exact .inr ⟨hp, hnew⟩
  -- an old put lies below both numbers of a new one
  have hapart : ∀ p p' : SealedPut, (p ∈ sent ∨ e.Owes p) → p'.sequence = e.relay.nextLocalSequence →
      e.channel.nextSendCounter = some p'.counter →
      ¬(p.sequence = p'.sequence ∨ p.counter = p'.counter) := by
    rintro p p' hp hsequence hcounter (hsame | hsame)
    · have hbelow := h.sequence p hp
      rw [hsame, hsequence] at hbelow
      exact lt_irrefl _ hbelow
    · have hbelow := h.counter p hp _ hcounter
      rw [hsame] at hbelow
      exact lt_irrefl _ hbelow
  refine ⟨?_, ?_, ?_⟩
  · intro p p' hp hp' hsame
    rcases hsplit p hp with hold | ⟨howes, hsequence, hcounter, -⟩ <;>
      rcases hsplit p' hp' with hold' | ⟨howes', hsequence', hcounter', -⟩
    · exact h.unique p p' hold hold' hsame
    · exact absurd hsame (hapart p p' hold hsequence' hcounter')
    · exact absurd (hsame.imp Eq.symm Eq.symm) (hapart p' p hold' hsequence hcounter)
    · exact howes.unique howes'
  · intro p hp
    rcases hsplit p hp with hold | ⟨-, -, -, hbelow, -⟩
    · exact (h.sequence p hold).trans_le hadvances.sequence
    · exact hbelow
  · intro p hp n' hn'
    rcases hsplit p hp with hold | ⟨-, -, -, -, hbelow⟩
    · obtain ⟨n, hn, hle⟩ := hadvances.counter n' hn'
      exact (h.counter p hold n hn).trans_le hle
    · exact hbelow n' hn'

/-- Nothing that is sent or cached has moved. -/
theorem advances_of_sending (hrelay : e'.relay.nextLocalSequence = e.relay.nextLocalSequence)
    (hchannel : e'.channel.nextSendCounter = e.channel.nextSendCounter)
    (howes : ∀ p, e'.Owes p → e.Owes p) : e.Advances e' := by
  refine ⟨le_of_eq (by rw [hrelay]), fun n hn => ⟨n, hchannel ▸ hn, le_rfl⟩, fun p hp => ?_⟩
  exact .inl (howes p hp)

theorem advances_self (e : Established V) : e.Advances e := advances_of_sending rfl rfl fun _ => id

theorem Spent.withEndpoint (h : Spent sent e) (endpoint : Endpoint V) :
    Spent sent { e with endpoint } :=
  h.advances (advances_of_sending rfl rfl fun _ => id)

theorem owes_congr {p : SealedPut} (hcached : e'.relay.cachedOutbound = e.relay.cachedOutbound)
    (hsequence : e'.relay.nextLocalSequence = e.relay.nextLocalSequence)
    (hawaiting : e'.relay.awaitingAck = e.relay.awaitingAck) : e'.Owes p ↔ e.Owes p := by
  unfold Owes RelayState.cachedApplicationSequence
  rw [hcached, hsequence, hawaiting]

theorem advances_accepted {relay : RelayState} {sequence : UInt8} {channel : SecureChannel}
    {endpoint : Endpoint V}
    (haccept : RelayState.acceptPeerSequence sequence e.relay = .ok () relay)
    (hchannel : channel.nextSendCounter = e.channel.nextSendCounter) :
    e.Advances ⟨endpoint, channel, relay⟩ ∧ ∀ p, Owes ⟨endpoint, channel, relay⟩ p → e.Owes p := by
  obtain ⟨-, next, -, rfl⟩ := RelayState.acceptPeerSequence_eq_ok.mp haccept
  have howes : ∀ p, Owes (⟨endpoint, channel, { e.relay with nextPeerSequence := next }⟩ :
      Established V) p → e.Owes p := fun p => (owes_congr rfl rfl rfl).mp
  exact ⟨advances_of_sending rfl hchannel howes, howes⟩

theorem advances_acknowledged {relay : RelayState} {sequence : UInt8}
    (hack : RelayState.acknowledgeApplicationFrame sequence e.relay = .ok () relay) :
    e.Advances { e with relay } ∧ ∀ p, ¬Owes { e with relay } p := by
  obtain ⟨-, rfl⟩ := RelayState.acknowledgeApplicationFrame_eq_ok.mp hack
  have hnone := not_owes (e := { e with
    relay := { e.relay with cachedOutbound := none, awaitingAck := false } }) rfl
  exact ⟨advances_of_sending rfl rfl fun p hp => absurd hp (hnone p), hnone⟩

/-- A new frame takes both next numbers. -/
theorem advances_cached {plaintext : Bytes} {frame : Frame} {channel : SecureChannel}
    {relay : RelayState} {endpoint : Endpoint V}
    (hseal : SecureChannel.sealFrame plaintext e.channel = .ok frame channel)
    (hcache : RelayState.cacheApplicationFrame frame e.relay = .ok () relay) :
    e.Advances ⟨endpoint, channel, relay⟩ := by
  obtain ⟨-, counter, hcounter, rfl, rfl⟩ := SecureChannel.sealFrame_eq_ok.mp hseal
  obtain ⟨-, -, next, hnext, rfl⟩ := RelayState.cacheApplicationFrame_eq_ok.mp hcache
  rw [checkedSucc_eq_some] at hnext
  have hbelow : ∀ n ∈ checkedSucc64 counter, counter.toNat < n.toNat := by
    intro n hn
    rw [checkedSucc64_eq_some.mp hn]
    exact Nat.lt_succ_self _
  refine ⟨?_, fun n hn => ⟨counter, hcounter, (hbelow n hn).le⟩, ?_⟩
  · show e.relay.nextLocalSequence.toNat ≤ next.toNat
    omega
  · rintro p ⟨frame, hcached, hframe, hsequence, -⟩
    obtain rfl := Option.some.inj hcached
    obtain rfl := Option.some.inj hframe
    obtain ⟨-, -, hpred⟩ := RelayState.cachedApplicationSequence_eq_ok.mp hsequence
    rw [checkedPred_eq_some] at hpred
    refine .inr ⟨UInt8.toNat_inj.mp ?_, hcounter, ?_, hbelow⟩
    · have hlast : next.toNat = p.sequence.toNat + 1 := hpred
      omega
    · show p.sequence.toNat < next.toNat
      have hlast : next.toNat = p.sequence.toNat + 1 := hpred
      omega

/-- A frame sealed for nothing: its counter is not used again. -/
theorem advances_sealed {plaintext : Bytes} {frame : Frame} {channel : SecureChannel}
    {endpoint : Endpoint V}
    (hseal : SecureChannel.sealFrame plaintext e.channel = .ok frame channel) :
    e.Advances ⟨endpoint, channel, e.relay⟩ := by
  obtain ⟨-, counter, hcounter, rfl, rfl⟩ := SecureChannel.sealFrame_eq_ok.mp hseal
  refine ⟨le_rfl, fun n hn => ⟨counter, hcounter, ?_⟩, fun p hp => .inl ?_⟩
  · rw [checkedSucc64_eq_some.mp hn]
    exact Nat.le_succ _
  · exact (owes_congr rfl rfl rfl).mp hp


end Established

/-! ### Objects around the final approval -/

namespace Endpoint
open ClaimantSession

/-- Only the final approval and the Payload lead into the durable phases. -/
theorem Accepts.before_final {e e' : Endpoint V} {object : Object} {sender : Side}
    (h : Accepts object sender e e') (happrove : object.kind ≠ .finalApprove)
    (hpayload : object.kind ≠ .payload) : durable e'.phase = false := by
  cases h with
  | accountSelect => rfl
  | sentOffer => rfl
  | receivedOffer => rfl
  | successor v next hsender hsucceeds =>
    have hstep := hsucceeds.step
    show durable next = false
    cases hphase : e.phase <;> cases hkind : object.kind <;>
      simp_all [nextPhase] <;> subst hstep <;> rfl

/-- In a durable phase an object that needs no checkpoint can only be a Refusal of the
final approval; an ended endpoint accepts nothing. -/
theorem Accepts.after_final {e e' : Endpoint V} {object : Object} {sender : Side}
    (h : Accepts object sender e e') (hphase : durable e.phase = true ∨ e.phase = .terminal)
    (hkind : preFinal object.kind = true) :
    e.phase = .finalApproved ∧ object.kind = .refusal := by
  cases h with
  | accountSelect _ _ _ hbegin => simp [hbegin, durable] at hphase
  | sentOffer _ _ _ hpre => cases hcase : e.phase <;> simp_all [preOffer, durable]
  | receivedOffer _ _ _ hpre => cases hcase : e.phase <;> simp_all [preOffer, durable]
  | successor v next hsender hsucceeds =>
    have hstep := hsucceeds.step
    have hopen := hsucceeds.open_
    cases hcase : e.phase <;> cases hobject : object.kind <;>
      simp_all [nextPhase, durable, preFinal]

theorem Accepts.from_allocator {e e' : Endpoint V} {object : Object}
    (h : Accepts object .allocator e e') : ClaimantSession.durable e'.phase = false := by
  refine h.before_final ?_ ?_ <;>
  · intro hkind
    cases h with
    | accountSelect hselect => cases hkind.symm.trans hselect
    | sentOffer hoffer => cases hkind.symm.trans hoffer
    | receivedOffer hoffer => cases hkind.symm.trans hoffer
    | successor v next hsender =>
      rw [hkind] at hsender
      cases hsender

theorem Accepts.open_ {e e' : Endpoint V} {object : Object} {sender : Side}
    (h : Accepts object sender e e') : e.phase ≠ .terminal := by
  intro hterminal
  cases h with
  | accountSelect _ _ _ hbegin => cases hterminal.symm.trans hbegin
  | sentOffer _ _ _ hpre =>
    rw [hterminal] at hpre
    cases hpre
  | receivedOffer _ _ _ hpre =>
    rw [hterminal] at hpre
    cases hpre
  | successor v next hsender hsucceeds => exact hsucceeds.open_ hterminal

end Endpoint

namespace Established
open ClaimantSession

/-- What preparing an own object leaves, whether it succeeds or not. -/
inductive Attempts (object : Object) (e e' : Established V) : Prop
  | refused : e'.relay = e.relay → e'.channel = e.channel →
      Endpoint.Refused e.endpoint e'.endpoint → Attempts object e e'
  | accepted : Endpoint.Accepts object e.endpoint.side e.endpoint e'.endpoint → e.Advances e' →
      Attempts object e e'

variable {e e' : Established V} {object : Object}

theorem attempts_self (object : Object) (e : Established V) : Attempts object e e :=
  .refused rfl rfl ⟨e.endpoint.bodyVerifier, .inl rfl⟩

variable [BodyVerifier V]

omit [BodyVerifier V] in
theorem sealFrame_error {plaintext : Bytes} {channel channel' : SecureChannel} {error : Error}
    (h : SecureChannel.sealFrame plaintext channel = .error error channel') :
    channel' = channel := by
  refine Call.Meets.error (Q := fun _ _ => True) (E := fun _ t => t = channel) ?_ h
  simp only [SecureChannel.sealFrame, Call.meets_bind, Call.meets_get, Call.meets_ofExcept,
    Call.meets_orThrow, Call.meets_set, Call.meets_pure]
  exact ⟨fun _ _ => ⟨fun _ _ => trivial, fun _ => trivial⟩, fun _ _ => trivial⟩

omit [Primitives] [BodyVerifier V] in
theorem cacheApplicationFrame_error {frame : Frame} {relay relay' : RelayState} {error : Error}
    (h : RelayState.cacheApplicationFrame frame relay = .error error relay') : relay' = relay := by
  refine Call.Meets.error (Q := fun _ _ => True) (E := fun _ t => t = relay) ?_ h
  simp only [RelayState.cacheApplicationFrame, Call.meets_bind, Call.meets_get, Call.meets_ite,
    Call.meets_throw, Call.meets_orThrow, Call.meets_set]
  exact ⟨fun _ => trivial, fun _ => ⟨fun _ _ => trivial, fun _ => trivial⟩⟩

theorem prepareFrame_attempts (object : Object) (e : Established V) :
    Attempts object e (Call.after (prepareFrame object e)) := by
  refine Call.Meets.after ?_
  unfold prepareFrame prepareOutbound
  rw [Call.meets_bind, Call.meets_bind, Call.meets_get, Call.meets_ite]
  refine ⟨fun _ => attempts_self object e, fun _ => ?_⟩
  cases hcached : e.relay.cachedOutbound with
  | some cached =>
    dsimp only
    rw [Call.meets_ite]
    refine ⟨fun _ => ?_, fun _ => attempts_self object e⟩
    simp only [Call.meets_pure, Call.meets_bind, Call.meets_get, Call.meets_ofExcept]
    exact ⟨fun _ _ => attempts_self object e, fun _ _ => attempts_self object e⟩
  | none =>
    simp only [Call.meets_bind, Call.meets_ofExcept]
    refine ⟨fun _ _ => ?_, fun _ _ => attempts_self object e⟩
    rw [onEndpoint, Call.meets_zoom, Call.meets_iff]
    have houtcome := e.endpoint.apply_outcome object e.endpoint.side
    rw [← Endpoint.send_run] at houtcome
    constructor
    · intro advance endpoint hsend
      rw [hsend] at houtcome
      cases houtcome with
      | retransmission => exact attempts_self object e
      | accepted _ _ haccepts =>
        have hsent : ∀ e' : Established V, e'.endpoint = endpoint → e.Advances e' →
            Attempts object e e' := by
          rintro e' rfl hadvances
          exact .accepted haccepts hadvances
        have hunsealed := hsent { e with endpoint } rfl (advances_of_sending rfl rfl fun _ => id)
        rw [Call.meets_ite]
        refine ⟨fun _ => hunsealed, fun _ => ?_⟩
        rw [Call.meets_bind, onChannel, Call.meets_zoom, Call.meets_iff]
        refine ⟨fun frame channel hseal => ?_, fun error channel hseal => ?_⟩
        · rw [Call.meets_bind, onRelay, Call.meets_zoom, Call.meets_iff]
          refine ⟨fun _ relay hcache => ?_, fun error relay hcache => ?_⟩
          · have hcached := hsent ⟨endpoint, channel, relay⟩ rfl (advances_cached hseal hcache)
            simp only [Call.meets_pure, Call.meets_get]
            exact ⟨fun _ _ => hcached, fun _ _ => hcached⟩
          · obtain rfl := cacheApplicationFrame_error hcache
            exact hsent ⟨endpoint, channel, e.relay⟩ rfl (advances_sealed hseal)
        · obtain rfl := sealFrame_error hseal
          exact hunsealed
    · intro error endpoint hsend
      rw [hsend] at houtcome
      cases houtcome with
      | refused hrefused => exact .refused rfl rfl hrefused


end Established

/-! ### The host of a claimant -/

/-- What the host of a claimant knows for the whole ceremony. -/
structure ClaimantHost where
  wrappingKey : Octets 32
  carrier : Carrier

/-- What the host brings to one recovery. -/
structure ClaimantReturn (V : Type) where
  now : UInt64
  bodyVerifier : V

namespace ClaimantSession

variable [BodyVerifier V]

/-- Calls under the host's wrapping key; a checkpoint is stored with its generation. -/
def machine (host : ClaimantHost) : Recovery.Machine Error (ClaimantSession V) ClaimantCall
    ClaimantEffect (UInt64 × Bytes) (ClaimantReturn V) where
  call := call host.wrappingKey
  checkpoint? := ClaimantEffect.checkpoint?
  confirms
    | .checkpointPersisted generation, stored => generation == stored.1
    | _, _ => false
  restore r stored :=
    restore stored.2 host.wrappingKey host.carrier stored.1 r.now r.bodyVerifier
  down := .terminal

theorem machine_restore (host : ClaimantHost) (r : ClaimantReturn V) (stored : UInt64 × Bytes) :
    (machine host).restore r stored =
      restore stored.2 host.wrappingKey host.carrier stored.1 r.now r.bodyVerifier := rfl

/-- A claimant that refuses does so before its final approval. -/
def RefusesInTime (c : ClaimantCall) (s : ClaimantSession V) : Prop :=
  ∀ object, c = .prepareApplicationObject object → object.kind = .refusal →
    s.endpointPhase ≠ some .finalApproved

/-! ### One carrier -/

variable {s s' : ClaimantSession V} {key : Octets 32} {c : ClaimantCall}
  {effects : List ClaimantEffect}

omit [BodyVerifier V] in
theorem prepareFinished_carrier {put : ClaimantEffect} (h : prepareFinished s = .ok put s') :
    s'.carrier = s.carrier := by
  obtain ⟨_, _, _, _, _, _, _, _, -, -, -, -, -, -, -, -, rfl⟩ := prepareFinished_eq_ok.mp h
  rfl

omit [BodyVerifier V] in
theorem establish_carrier {ack : Option ClaimantEffect} (h : establish ack s = .ok effects s') :
    s'.carrier = s.carrier := by
  obtain ⟨_, _, _, _, _, -, -, -, -, -, -, -, rfl⟩ := establish_eq_ok.mp h
  rfl

/-- The handshake keeps the carrier. -/
theorem receive_carrier {input : ServerInput} {now : UInt64} (hphase : s.phase ≠ .established)
    (h : receive input now s = .ok effects s') :
    s'.carrier = s.carrier ∨ s'.phase = .terminal := by
  unfold receive at h
  rw [Call.run_bind (Call.run_get s), Call.guard_eq_ok, Call.guard_eq_ok] at h
  obtain ⟨-, -, h⟩ := h
  split_ifs at h
  · simp at h
  rw [guarded_eq_ok] at h
  cases input with
  | error e => exact (Call.throw_eq_ok.mp h).elim
  | ok message =>
    obtain ⟨message, hmessage⟩ := message
    dsimp only [applyServer] at h
    rw [Call.run_bind (Call.run_get s)] at h
    cases message with
    | welcome =>
      dsimp only at h
      split_ifs at h
      · obtain ⟨_, _, -, -, -, rfl⟩ := welcomed_eq_ok.mp h
        exact .inl rfl
      · exact (Call.throw_eq_ok.mp h).elim
    | claimedV2 mailboxId membershipToken expiresAt =>
      dsimp only at h
      split_ifs at h
      · obtain ⟨_, _, _, _, _, -, -, -, -, rfl⟩ := claimed_eq_ok h
        exact .inl rfl
      · exact (Call.throw_eq_ok.mp h).elim
    | frame peerSeq body =>
      left
      obtain ⟨_, _, _, _, -, -, -, -, hmoved⟩ := (peerFrame_handshake hphase).mp h
      obtain ⟨-, -, ⟨-, -, rfl⟩ | ⟨-, put, -, hput⟩⟩ | ⟨-, -, ⟨-, -, rfl⟩ | ⟨-, hopened⟩⟩ := hmoved
      · rfl
      · exact (prepareFinished_carrier hput :)
      · rfl
      · exact (establish_carrier hopened :)
    | acknowledged seq =>
      left
      obtain ⟨_, -, ⟨-, -, rfl⟩ | ⟨-, _, -, hmoved⟩⟩ := (localAck_handshake hphase).mp h
      · rfl
      obtain ⟨-, ⟨-, put, -, hput⟩ | ⟨-, -, -, rfl⟩⟩ | ⟨-, ⟨-, -, rfl⟩ | ⟨-, hopened⟩⟩ := hmoved
      · exact (prepareFinished_carrier hput :)
      · rfl
      · rfl
      · exact (establish_carrier hopened :)
    | pong =>
      obtain ⟨-, rfl⟩ := Call.pure_eq_ok.mp h
      exact .inl rfl
    | closed reason =>
      simp only [Call.bind_eq_ok, Call.modify_eq_ok, Call.pure_eq_ok] at h
      obtain ⟨_, _, rfl, -, rfl⟩ := h
      exact .inr rfl
    | error code =>
      simp only [Call.bind_eq_ok, Call.modify_eq_ok, Call.pure_eq_ok] at h
      obtain ⟨_, _, rfl, -, rfl⟩ := h
      exact .inr rfl
    | _ => exact (Call.throw_eq_ok.mp h).elim

omit [BodyVerifier V] in
/-- A session without an endpoint stands before its channel. -/
theorem Stage.before (hs : s.Stage) (hstarting : s.Starting) :
    s.phase ≠ .established ∧ s.phase ≠ .awaitProfileAuthorisation := by
  have hclosed : ∀ e : Established V, s.application ≠ some e := by
    intro e he
    cases hstarting.endpoint.symm.trans (application_eq_some.mp he).1
  cases hs with
  | starting _ hestablished hawaiting => exact ⟨hestablished, hawaiting⟩
  | awaiting hdrives => exact absurd hdrives.application (hclosed _)
  | running hdrives => exact absurd hdrives.application (hclosed _)

/-- A session that has not ended keeps its carrier. -/
theorem call_carrier (hs : s.Stage) (h : call key c s = .ok effects s') :
    s'.carrier = s.carrier ∨ s'.phase = .terminal := by
  have hearly : s.Starting → s'.carrier = s.carrier ∨ s'.phase = .terminal := by
    intro hstarting
    obtain ⟨hestablished, hawaiting⟩ := hs.before hstarting
    obtain rfl | ⟨input, now, rfl⟩ := hstarting.call_ok hestablished hawaiting h
    · exact .inl rfl
    · exact receive_carrier hestablished h
  cases call_progress hs h with
  | bootstrapped hstarting => exact hearly hstarting
  | confirmed hstarting => exact hearly hstarting
  | receipt _ _ _ _ _ hs' =>
    rw [hs']
    exact .inl rfl
  | ended => exact .inr rfl
  | _ => exact .inl rfl


/-! ### Worlds with crashes -/

omit [BodyVerifier V] in
/-- An endpoint past its final approval. -/
structure Final (e : Established V) : Prop where
  phase : durable e.endpoint.phase = true ∨ e.endpoint.phase = .terminal
  last : ∀ last ∈ e.endpoint.last, preFinal last.kind = false

/-- A stored checkpoint seals the channel and the relay projection of a state. -/
def Holds (host : ClaimantHost) (stored : UInt64 × Bytes) (e : Established V) : Prop :=
  ∃ expiry nonce now endpoint endpoint', Endpoint.sealCheckpoint e.channel e.relay
      host.wrappingKey stored.1 expiry nonce now endpoint = .ok stored.2 endpoint' ∧
    (⟨endpoint, e.channel, e.relay⟩ : Established V).Coherent ∧ endpoint.side = .claimant ∧
    endpoint.carrier = host.carrier

theorem holds_of_sealed {key : Octets 32} {carrier : Carrier} {generation now : UInt64}
    {expiry : Option UInt64} {nonce : Octets 12} {checkpoint : Bytes} {e : Established V}
    {endpoint : Endpoint V}
    (hseal : Endpoint.sealCheckpoint e.channel e.relay key generation expiry nonce now e.endpoint =
      .ok checkpoint endpoint)
    (hcoherent : e.Coherent) (hside : e.endpoint.side = .claimant)
    (hcarrier : e.endpoint.carrier = carrier) : Holds ⟨key, carrier⟩ (generation, checkpoint) e :=
  ⟨expiry, nonce, now, e.endpoint, endpoint, hseal, hcoherent, hside, hcarrier⟩

/-- The confirmed checkpoint owes whatever this state owes. -/
def Covered (host : ClaimantHost) (sent : List SealedPut) (confirmed : Option (UInt64 × Bytes))
    (e : Established V) : Prop :=
  ∃ stored ∈ confirmed, ∃ e₀ : Established V, Holds host stored e₀ ∧ e₀.Spent sent ∧
    ∀ p, e.Owes p → e₀.Owes p

/-- An open session is not past its final approval, or the confirmed checkpoint covers it. -/
def Secured (host : ClaimantHost) (sent : List SealedPut) (confirmed : Option (UInt64 × Bytes))
    (e : Established V) : Prop :=
  durable e.endpoint.phase = false ∧ confirmed = none ∨
    Final e ∧ Covered host sent confirmed e

/-- A live session beside what was put and the stored checkpoints. -/
inductive Stands (host : ClaimantHost) (sent : List SealedPut)
    (emitted confirmed : Option (UInt64 × Bytes)) (s : ClaimantSession V) : Prop
  | ended : s.phase = .terminal → Stands host sent emitted confirmed s
  | starting : s.Starting → sent = [] → confirmed = none → Stands host sent emitted confirmed s
  | open_ {e : Established V} : s.Drives e → s.persistenceGate = none → e.Spent sent →
      Secured host sent confirmed e → Stands host sent emitted confirmed s
  | gated {e : Established V} {stored : UInt64 × Bytes} : s.Drives e →
      s.persistenceGate = some stored.1 → emitted = some stored → Holds host stored e →
      Final e → e.Spent sent → (∀ p ∈ ClaimantEffect.sealedPuts s.afterPersist, e.Owes p) →
      (∀ effect ∈ s.afterPersist, effect.checkpoint? = none) →
      Stands host sent emitted confirmed s

structure Tracked (host : ClaimantHost) (sent : List SealedPut)
    (w : Recovery.World (ClaimantSession V) (UInt64 × Bytes)) : Prop where
  unique : Unrepeated sent
  confirmed : ∀ stored ∈ w.confirmed, ∃ e : Established V, Holds host stored e ∧ e.Spent sent
  live : ∀ s ∈ w.live, s.Stage ∧ (s.phase ≠ .terminal → s.carrier = host.carrier) ∧
    Stands host sent w.emitted w.confirmed s

variable {host : ClaimantHost} {sent : List SealedPut}
  {emitted confirmed : Option (UInt64 × Bytes)} {e e' : Established V} {object : Object}

omit [BodyVerifier V] in
theorem Stage.drives (h : s.Stage) (he : s.application = some e) : s.Drives e := by
  have hsame : ∀ {t : Established V}, s.Drives t → s.Drives e := by
    intro t ht
    obtain rfl := Option.some.inj (he.symm.trans ht.application)
    exact ht
  cases h with
  | starting hstarting => cases hstarting.endpoint.symm.trans (application_eq_some.mp he).1
  | awaiting hdrives => exact hsame hdrives
  | running hdrives => exact hsame hdrives

omit [BodyVerifier V] in
theorem Drives.not_starting (h : s.Drives e) : ¬s.Starting := by
  intro hstarting
  cases hstarting.endpoint.symm.trans (application_eq_some.mp h.application).1

omit [BodyVerifier V] in
/-- The last object of a durable phase is the final approval or the Payload. -/
theorem final_of_durable (h : e.Coherent) (hdurable : durable e.endpoint.phase = true) :
    Final e := by
  refine ⟨.inl hdurable, fun last hlast => ?_⟩
  have hopen : e.endpoint.phase ≠ .terminal := by
    intro hterminal
    rw [hterminal] at hdurable
    cases hdurable
  have hconsistent := h.sound.projection hopen
  rw [hlast] at hconsistent
  have hcase : e.endpoint.phase = .finalApproved ∨ e.endpoint.phase = .payloadSent := by
    simpa [durable] using hdurable
  rcases hcase with hphase | hphase <;> cases hintent : e.endpoint.intentDigest <;>
    simp only [hphase, hintent, consistentProjection, Bool.and_eq_true, beq_iff_eq,
      Bool.false_eq_true] at hconsistent
  · rw [hconsistent.1]
    rfl
  · rw [hconsistent.1]
    rfl

/-- What an ungated session with an application state stands on. -/
theorem Stands.ungated (h : Stands host sent emitted confirmed s) (he : s.application = some e)
    (hgate : s.persistenceGate = none) (hopen : s.phase ≠ .terminal) :
    s.Drives e ∧ e.Spent sent ∧ Secured host sent confirmed e := by
  cases h with
  | ended hterminal => exact absurd hterminal hopen
  | starting hstarting => cases hstarting.endpoint.symm.trans (application_eq_some.mp he).1
  | open_ hdrives _ hspent hstands =>
    obtain rfl := Option.some.inj (he.symm.trans hdrives.application)
    exact ⟨hdrives, hspent, hstands⟩
  | gated _ hgated => cases hgate.symm.trans hgated

theorem Covered.mono (h : Covered host sent confirmed e) (howes : ∀ p, e'.Owes p → e.Owes p) :
    Covered host sent confirmed e' := by
  obtain ⟨stored, hstored, e₀, hholds, hspent, hsub⟩ := h
  exact ⟨stored, hstored, e₀, hholds, hspent, fun p hp => hsub p (howes p hp)⟩

/-- The peer's objects neither lead past the final approval nor matter behind it. -/
theorem Takes.open_ (h : Takes e object e') (hside : e.endpoint.side = .claimant)
    (hundurable : durable e.endpoint.phase = false) (hopen : Secured host sent confirmed e) :
    e.Advances e' ∧ Secured host sent confirmed e' := by
  cases h with
  | @intro peerSeq frame plaintext relay channel endpoint advance haccept hframe _ hreceived =>
    obtain ⟨-, counter, ciphertext, -, -, -, -, rfl⟩ := SecureChannel.openFrame_eq_ok.mp hframe
    have hmoved : endpoint = e.endpoint ∨ Endpoint.Accepts object .allocator e.endpoint endpoint := by
      obtain ⟨check, -, hoffer⟩ | hreceive := hreceived
      · have houtcome := e.endpoint.receiveOffer_outcome object check
        rw [hoffer] at houtcome
        cases houtcome with
        | retransmission => exact .inl rfl
        | accepted _ _ haccepts => exact .inr haccepts
      · obtain ⟨-, hsame⟩ | haccepts := Endpoint.receive_ok hreceive
        · exact .inl hsame
        · rw [hside] at haccepts
          exact .inr haccepts
    obtain ⟨hadvances, howes⟩ : e.Advances ⟨endpoint,
        { e.channel with nextReceiveCounter := checkedSucc64 counter }, relay⟩ ∧ _ :=
      Established.advances_accepted haccept rfl
    refine ⟨hadvances, ?_⟩
    obtain ⟨-, hnone⟩ | ⟨hfinal, hcovered⟩ := hopen
    · refine .inl ⟨?_, hnone⟩
      obtain rfl | haccepts := hmoved
      · exact hundurable
      · exact haccepts.from_allocator
    · have hterminal := hfinal.phase.resolve_left (by simp [hundurable])
      obtain rfl | haccepts := hmoved
      · exact .inr ⟨⟨hfinal.phase, hfinal.last⟩, hcovered.mono howes⟩
      · exact absurd hterminal haccepts.open_


theorem Prepares.advances {sequence : UInt8} {body : Bytes}
    (h : Prepares object e e' sequence body) : e.Advances e' := by
  cases h with
  | intro hprepare =>
    obtain ⟨-, ⟨-, -, rfl⟩ | ⟨-, -, endpoint, channel, relay, -, hseal, hcache, rfl⟩⟩ :=
      Established.prepareOutbound_eq_ok.mp hprepare
    · exact Established.advances_self _
    · exact Established.advances_cached hseal hcache

/-- What a prepared object is put as is cached. -/
theorem Prepares.owes {sequence : UInt8} {body : Bytes}
    (h : Prepares object e e' sequence body) :
    ∀ p ∈ ClaimantEffect.sealedPuts [.send (.put sequence body)], e'.Owes p := by
  cases h with
  | @intro frame sequence body hprepare hsequence hbody =>
    intro p hp
    obtain ⟨effect, heffect, hput⟩ := List.mem_filterMap.mp hp
    obtain rfl := List.mem_singleton.mp heffect
    rw [ClaimantEffect.sealedPut?_put hbody, Option.map_eq_some_iff] at hput
    obtain ⟨counter, hcounter, rfl⟩ := hput
    exact ⟨frame, AllocatorSession.prepareOutbound_cached hprepare, hcounter, hsequence, hbody⟩

/-- Before the final approval, an object that needs no checkpoint stays there; behind it
only a Refusal would go out. -/
theorem Prepares.secured {sequence : UInt8} {body : Bytes}
    (h : Prepares object e e' sequence body) (hkind : preFinal object.kind = true)
    (hrefusal : ¬(e.endpoint.phase = .finalApproved ∧ object.kind = .refusal))
    (hsecured : Secured host sent confirmed e) :
    durable e'.endpoint.phase = false ∧ confirmed = none := by
  cases h with
  | intro hprepare =>
    obtain ⟨-, ⟨-, hagain, rfl⟩ | ⟨-, -, endpoint, channel, relay, hsend, -, -, rfl⟩⟩ :=
      Established.prepareOutbound_eq_ok.mp hprepare
    · obtain hearly | ⟨hfinal, -⟩ := hsecured
      · exact hearly
      · simp only [Endpoint.exactRetransmission, Option.any_eq_true, Bool.and_eq_true,
          beq_iff_eq] at hagain
        obtain ⟨last, hlast, ⟨⟨⟨-, hsame⟩, -⟩, -⟩, -⟩ := hagain
        have hkept := hfinal.last last hlast
        rw [hsame, hkind] at hkept
        cases hkept
    · have haccepts := Endpoint.send_advanced hsend
      obtain ⟨-, hnone⟩ | ⟨hfinal, -⟩ := hsecured
      · refine ⟨haccepts.before_final ?_ ?_, hnone⟩ <;>
        · intro hno
          rw [hno] at hkind
          cases hkind
      · exact absurd (haccepts.after_final hfinal.phase hkind) hrefusal

/-- A checkpoint covers exactly what is put once it is confirmed. -/
theorem Covers.owes {after : List ClaimantEffect} (h : Covers e e' after) :
    e.Advances e' ∧ (∀ p ∈ ClaimantEffect.sealedPuts after, e'.Owes p) ∧
      ∀ effect ∈ after, effect.checkpoint? = none := by
  cases h with
  | object _ hprepares =>
    refine ⟨hprepares.advances, hprepares.owes, fun effect heffect => ?_⟩
    rw [List.mem_singleton.mp heffect]
    rfl
  | acknowledged _ hack =>
    obtain ⟨hadvances, -⟩ := Established.advances_acknowledged hack
    exact ⟨hadvances, by simp [ClaimantEffect.sealedPuts], by simp⟩

/-- A sealed state is past its final approval and its checkpoint holds it. -/
theorem sealed_final {generation now : UInt64} {expiry : Option UInt64} {nonce : Octets 12}
    {checkpoint : Bytes} {endpoint : Endpoint V} (hcoherent : e.Coherent)
    (hside : e.endpoint.side = .claimant) (hcarrier : e.endpoint.carrier = host.carrier)
    (hseal : Endpoint.sealCheckpoint e.channel e.relay host.wrappingKey generation expiry nonce now
      e.endpoint = .ok checkpoint endpoint) :
    Final { e with endpoint } ∧ Holds host (generation, checkpoint) { e with endpoint } := by
  refine ⟨?_, expiry, nonce, now, e.endpoint, endpoint, hseal, hcoherent, hside, hcarrier⟩
  obtain ⟨-, hphase, -, -, rfl⟩ := Endpoint.sealCheckpoint_eq_ok.mp hseal
  obtain ⟨-, -, hclaimant⟩ := validateCheckpointPhase_ok hphase
  have hdurable : durable e.endpoint.phase = true := by
    obtain ⟨hpayload, -⟩ | ⟨hfinal, -⟩ := hclaimant hside
    · rw [hpayload]
      rfl
    · rw [hfinal]
      rfl
  exact final_of_durable (e := { e with endpoint := e.endpoint.stamped generation nonce })
    (hcoherent.stamped generation nonce) hdurable

/-- A restored session owes what the checkpoint holds. -/
theorem restore_held {stored : UInt64 × Bytes} {e₀ : Established V} {now : UInt64} {v : V}
    (hholds : Holds host stored e₀)
    (h : restore stored.2 host.wrappingKey host.carrier stored.1 now v = .ok s) :
    s.Stage ∧ s.carrier = host.carrier ∧ s.persistenceGate = none ∧ ∃ e : Established V,
      s.Drives e ∧ Final e ∧ e.channel = e₀.channel ∧ e.relay = e₀.relay := by
  have hstage : s.Stage := (Begins.restored h).stage
  obtain ⟨expiry, nonce, sealedAt, endpoint, endpoint', hseal, hcoherent, hside, hcarrier⟩ := hholds
  unfold restore at h
  obtain ⟨e, hrestored, h⟩ := Calls.except_bind_eq_ok.mp h
  obtain ⟨hdurable, h⟩ := Calls.guard_eq_ok.mp h
  obtain rfl := Except.ok.inj h
  have hreopened := Endpoint.restoreCheckpoint_eq_ok hrestored
  rw [← hside, ← hcarrier] at hrestored
  obtain ⟨-, v', rfl⟩ := Endpoint.restoreCheckpoint_of_sealed hseal hcoherent hrestored
  exact ⟨hstage, rfl, rfl, _, hstage.drives rfl,
    final_of_durable hreopened.coherent (by simpa using hdurable), rfl, rfl⟩


/-! ### One call -/

section Step

variable {w : Recovery.World (ClaimantSession V) (UInt64 × Bytes)}

/-- A call that neither seals nor confirms moves the live session. -/
theorem tracked_moved (hunique : Unrepeated (sent ++ ClaimantEffect.sealedPuts effects))
    (hc : ∀ generation, c ≠ .checkpointPersisted generation)
    (hnone : ∀ effect ∈ effects, effect.checkpoint? = none)
    (hspent : ∀ stored ∈ w.confirmed, ∃ e : Established V, Holds host stored e ∧
      e.Spent (sent ++ ClaimantEffect.sealedPuts effects))
    (hstage : s'.Stage) (hcarrier : s'.phase ≠ .terminal → s'.carrier = host.carrier)
    (hstands : Stands host (sent ++ ClaimantEffect.sealedPuts effects) w.emitted w.confirmed s') :
    Tracked host (sent ++ ClaimantEffect.sealedPuts effects)
      ((machine host).stored c effects s' w) := by
  have hconfirms : ∀ k, (machine (V := V) host).confirms c k = false := by
    intro k
    cases c with
    | checkpointPersisted generation => exact absurd rfl (hc generation)
    | _ => rfl
  rw [Recovery.Machine.stored_of_none hnone hconfirms]
  refine ⟨hunique, hspent, fun t ht => ?_⟩
  obtain rfl := Option.some.inj ht
  exact ⟨hstage, hcarrier, hstands⟩

/-- A call that puts nothing sealed. -/
theorem Tracked.quiet (h : Tracked host sent w)
    (hc : ∀ generation, c ≠ .checkpointPersisted generation)
    (hnone : ∀ effect ∈ effects, effect.checkpoint? = none)
    (hsealed : ClaimantEffect.sealedPuts effects = []) (hstage : s'.Stage)
    (hcarrier : s'.phase ≠ .terminal → s'.carrier = host.carrier)
    (hstands : Stands host sent w.emitted w.confirmed s') :
    Tracked host (sent ++ ClaimantEffect.sealedPuts effects)
      ((machine host).stored c effects s' w) := by
  refine tracked_moved ?_ hc hnone ?_ hstage hcarrier ?_ <;> rw [hsealed, List.append_nil]
  · exact h.unique
  · exact h.confirmed
  · exact hstands

theorem stored_persisted {stored : UInt64 × Bytes} (hemitted : w.emitted = some stored)
    (hnone : ∀ effect ∈ s.afterPersist, effect.checkpoint? = none) :
    (machine host).stored (.checkpointPersisted stored.1) s.afterPersist s' w =
      ⟨some s', some stored, some stored⟩ := by
  have hwaiting : s.afterPersist.filterMap (machine (V := V) host).checkpoint? = [] :=
    List.filterMap_eq_nil_iff.mpr hnone
  rw [Recovery.Machine.stored, hwaiting, hemitted]
  simp [machine]

/-- Confirming the checkpoint a session waits for puts what it covers. -/
theorem Tracked.persisted (h : Tracked host sent w) (hlive : w.live = some s)
    {generation : UInt64} (hgate : s.persistenceGate = some generation) (hopen : s.phase ≠ .terminal)
    (hstage : ({ s with persistenceGate := none, afterPersist := [] } : ClaimantSession V).Stage) :
    Tracked host (sent ++ ClaimantEffect.sealedPuts s.afterPersist)
      ((machine host).stored (.checkpointPersisted generation) s.afterPersist
        { s with persistenceGate := none, afterPersist := [] } w) := by
  obtain ⟨-, hcarrier, hstands⟩ := h.live s hlive
  cases hstands with
  | ended hterminal => exact absurd hterminal hopen
  | starting hstarting => cases hgate.symm.trans hstarting.ungated
  | open_ _ hungated => cases hgate.symm.trans hungated
  | @gated e stored hdrives hgated hemitted hholds hfinal hspent howes hnone =>
    obtain rfl := Option.some.inj (hgate.symm.trans hgated)
    have hreleased := hspent.released howes
    rw [stored_persisted hemitted hnone]
    refine ⟨hreleased.unrepeated, ?_, fun t ht => ?_⟩
    · rintro _ ⟨⟩
      exact ⟨e, hholds, hreleased⟩
    · obtain rfl := Option.some.inj ht
      have hmoved := hstage.drives (e := e) hdrives.application
      refine ⟨hstage, hcarrier, .open_ hmoved rfl hreleased (.inr ⟨hfinal, ?_⟩)⟩
      exact ⟨stored, rfl, e, hholds, hreleased, fun _ => id⟩

omit [BodyVerifier V] in
/-- What a cached frame is put as is owed. -/
theorem resumed_owes {frame : Frame} {sequence : UInt8} {body : Bytes}
    (hcached : e.relay.cachedOutbound = some frame)
    (hsequence : e.relay.cachedApplicationSequence = .ok sequence)
    (hbody : encodeFrame frame = .ok body) :
    ∀ p ∈ ClaimantEffect.sealedPuts [.send (.put sequence body)], e.Owes p := by
  intro p hp
  obtain ⟨effect, heffect, hput⟩ := List.mem_filterMap.mp hp
  obtain rfl := List.mem_singleton.mp heffect
  rw [ClaimantEffect.sealedPut?_put hbody, Option.map_eq_some_iff] at hput
  obtain ⟨counter, hcounter, rfl⟩ := hput
  exact ⟨frame, hcached, hcounter, hsequence, hbody⟩

theorem Tracked.call_ok (h : Tracked host sent w) (hlive : w.live = some s)
    (hsafe : RefusesInTime c s) (hcall : call host.wrappingKey c s = .ok effects s') :
    Tracked host (sent ++ ClaimantEffect.sealedPuts effects)
      ((machine host).stored c effects s' w) := by
  obtain ⟨hs, hcarrier, hstands⟩ := h.live s hlive
  have hprogress := call_progress hs hcall
  have hs' := hprogress.stage hs
  have hopen : s.phase ≠ .terminal := by
    intro hterminal
    obtain ⟨error, hfails⟩ := call_terminal host.wrappingKey c hs hterminal
    rw [hfails] at hcall
    cases hcall
  have hcarrier' : s'.phase ≠ .terminal → s'.carrier = host.carrier := by
    intro hgoes
    have hkept := (call_carrier hs hcall).resolve_right hgoes
    rw [hkept, hcarrier hopen]
  by_cases hpersisted : ∃ generation, c = .checkpointPersisted generation
  · obtain ⟨generation, rfl⟩ := hpersisted
    simp only [call, checkpointPersisted, Call.bind_eq_ok, Call.get_eq_ok, Call.guard_eq_ok,
      Call.set_eq_ok, Call.pure_eq_ok, not_not] at hcall
    obtain ⟨_, _, ⟨rfl, rfl⟩, hgate, _, _, rfl, rfl, rfl⟩ := hcall
    exact h.persisted hlive hgate hopen hs'
  have hc : ∀ generation, c ≠ .checkpointPersisted generation :=
    fun generation hsame => hpersisted ⟨generation, hsame⟩
  cases hprogress with
  | silent hputless =>
    exact h.quiet hc (fun effect heffect => (hputless effect heffect).1)
      (ClaimantEffect.sealedPuts_putless hputless) hs' hcarrier' hstands
  | ended hputless =>
    exact h.quiet hc (fun effect heffect => (hputless effect heffect).1)
      (ClaimantEffect.sealedPuts_putless hputless) hs' hcarrier' (.ended rfl)
  | bootstrapped hstarting hstarting' _ _ _ hbare =>
    refine h.quiet hc (fun effect heffect => (hbare effect heffect).1)
      (ClaimantEffect.sealedPuts_bare hbare) hs' hcarrier' ?_
    cases hstands with
    | ended hterminal => exact absurd hterminal hopen
    | starting _ hsent hnone => exact .starting hstarting' hsent hnone
    | open_ hdrives => exact absurd hstarting hdrives.not_starting
    | gated hdrives => exact absurd hstarting hdrives.not_starting
  | confirmed hstarting he hconfirmed _ _ hgate _ _ hputless =>
    refine h.quiet hc (fun effect heffect => (hputless effect heffect).1)
      (ClaimantEffect.sealedPuts_putless hputless) hs' hcarrier' ?_
    cases hstands with
    | ended hterminal => exact absurd hterminal hopen
    | starting _ hsent hnone =>
      obtain ⟨_, _, hendpoint⟩ := hconfirmed.endpoint
      refine .open_ (hs'.drives he) hgate ?_ (.inl ⟨?_, hnone⟩)
      · rw [hsent]
        exact Established.spent_nil hconfirmed.uncached
      · rw [hendpoint]
        rfl
    | open_ hdrives => exact absurd hstarting hdrives.not_starting
    | gated hdrives => exact absurd hstarting hdrives.not_starting
  | @authorised offerVerifier hphase =>
    refine h.quiet hc (by simp) rfl hs' hcarrier' ?_
    cases hs with
    | starting _ _ hawaiting => exact absurd hphase hawaiting
    | awaiting hdrives _ hgate =>
      obtain ⟨-, hspent, hsecured⟩ := hstands.ungated hdrives.application hgate hopen
      exact .open_ (hs'.drives hdrives.application) hgate hspent hsecured
    | running _ hestablished => cases hphase.symm.trans hestablished
  | taken hphase he hgate hundurable htakes hputless =>
    obtain ⟨hdrives, hspent, hsecured⟩ := hstands.ungated he hgate hopen
    obtain ⟨hadvances, hsecured'⟩ := htakes.open_ hdrives.side hundurable hsecured
    exact h.quiet hc (fun effect heffect => (hputless effect heffect).1)
      (ClaimantEffect.sealedPuts_putless hputless) hs' hcarrier'
      (.open_ (hs'.drives rfl) hgate (hspent.advances hadvances) hsecured')
  | acknowledged hphase he hgate hundurable hack =>
    obtain ⟨hdrives, hspent, hsecured⟩ := hstands.ungated he hgate hopen
    obtain ⟨hadvances, hnone⟩ := Established.advances_acknowledged hack
    refine h.quiet hc (by simp) rfl hs' hcarrier'
      (.open_ (hs'.drives rfl) hgate (hspent.advances hadvances) ?_)
    obtain hearly | ⟨hfinal, hcovered⟩ := hsecured
    · exact .inl hearly
    · exact .inr ⟨⟨hfinal.phase, hfinal.last⟩, hcovered.mono fun p hp => absurd hp (hnone p)⟩
  | @sent e e' object sequence body hcall' hphase he hgate hkind hprepares =>
    obtain ⟨hdrives, hspent, hsecured⟩ := hstands.ungated he hgate hopen
    have hrefusal : ¬(e.endpoint.phase = .finalApproved ∧ object.kind = .refusal) := by
      rintro ⟨hfinal, hrefuses⟩
      refine hsafe object hcall' hrefuses ?_
      rw [endpointPhase, (application_eq_some.mp he).1, Option.map_some, hfinal]
    obtain ⟨hundurable, hnone⟩ := hprepares.secured hkind hrefusal hsecured
    have hreleased := (hspent.advances hprepares.advances).released hprepares.owes
    refine tracked_moved hreleased.unrepeated hc ?_ ?_ hs' hcarrier'
      (.open_ (hs'.drives rfl) hgate hreleased (.inl ⟨hundurable, hnone⟩))
    · intro effect heffect
      rw [List.mem_singleton.mp heffect]
      rfl
    · rw [hnone]
      simp
  | @sealed_ e e₁ after generation now expiry nonce checkpoint endpoint hphase he hgate hempty
      hcovers hgeneration hseal =>
    obtain ⟨hdrives, hspent, -⟩ := hstands.ungated he hgate hopen
    have hmoved := hcovers.moved hdrives.coherent
    obtain ⟨hadvances, howes, hnone⟩ := hcovers.owes
    have hsame : e₁.endpoint.carrier = host.carrier :=
      hmoved.carrier.trans (hdrives.carrier.trans (hcarrier hopen))
    obtain ⟨hfinal, hholds⟩ :=
      sealed_final hmoved.coherent (hmoved.side.trans hdrives.side) hsame hseal
    have hstored : (machine host).stored c [.checkpoint generation checkpoint]
        { s.withApplication { e₁ with endpoint } with
          persistenceGate := some generation, afterPersist := after } w =
        ⟨some { s.withApplication { e₁ with endpoint } with
          persistenceGate := some generation, afterPersist := after },
          some (generation, checkpoint), w.confirmed⟩ := by
      have hunconfirmed : w.emitted.any ((machine (V := V) host).confirms c) = false := by
        cases w.emitted with
        | none => rfl
        | some k =>
          cases c with
          | checkpointPersisted generation => exact absurd rfl (hc generation)
          | _ => rfl
      rw [Recovery.Machine.stored, hunconfirmed]
      rfl
    rw [hstored, show ClaimantEffect.sealedPuts [.checkpoint generation checkpoint] = [] from rfl,
      List.append_nil]
    refine ⟨h.unique, h.confirmed, fun t ht => ?_⟩
    obtain rfl := Option.some.inj ht
    exact ⟨hs', hcarrier', .gated (hs'.drives rfl) rfl rfl hholds hfinal
      ((hspent.advances hadvances).withEndpoint endpoint) howes hnone⟩
  | persisted hc' => exact absurd hc' (hc _)
  | @resumed e frame sequence body _ hphase he hgate hdurable hcached hsequence hbody =>
    obtain ⟨hdrives, hspent, hsecured⟩ := hstands.ungated he hgate hopen
    have howes := resumed_owes hcached hsequence hbody
    obtain ⟨hundurable, -⟩ | ⟨hfinal, stored, hstored, e₀, hholds, hspent₀, hsub⟩ := hsecured
    · rw [hdurable] at hundurable
      cases hundurable
    have hreleased₀ := hspent₀.released fun p hp => hsub p (howes p hp)
    refine tracked_moved hreleased₀.unrepeated hc ?_ ?_ hs' hcarrier'
      (.open_ hdrives hgate (hspent.released howes)
        (.inr ⟨hfinal, stored, hstored, e₀, hholds, hreleased₀, hsub⟩))
    · intro effect heffect
      rw [List.mem_singleton.mp heffect]
      rfl
    · intro stored' hstored'
      obtain rfl := Option.some.inj (hstored.symm.trans hstored')
      exact ⟨e₀, hholds, hreleased₀⟩
  | @receipt e e' _ hphase he hgate hpayload hs'' hrelay hcounter _ _ hverifier =>
    obtain ⟨hdrives, hspent, hsecured⟩ := hstands.ungated he hgate hopen
    obtain ⟨v, hendpoint⟩ := hverifier
    have hhalf : e.Advances e' ∧ ∀ p, e'.Owes p → e.Owes p := by
      obtain ⟨endpoint, channel, relay⟩ := e'
      obtain hsame | ⟨n, haccept⟩ := hrelay
      · have howes : ∀ p, Established.Owes ⟨endpoint, channel, relay⟩ p → e.Owes p := by
          intro p
          obtain rfl : relay = e.relay := hsame
          exact (Established.owes_congr rfl rfl rfl).mp
        exact ⟨Established.advances_of_sending (congrArg _ hsame) hcounter howes, howes⟩
      · exact Established.advances_accepted haccept hcounter
    have happlication : s'.application = some e' := by
      rw [hs'']
      rfl
    have hgate' : s'.persistenceGate = none := by
      rw [hs'']
      exact hgate
    refine h.quiet hc (by simp) rfl hs' hcarrier' (.open_ (hs'.drives happlication) hgate'
      (hspent.advances hhalf.1) ?_)
    obtain ⟨hundurable, -⟩ | ⟨hfinal, hcovered⟩ := hsecured
    · rw [hpayload] at hundurable
      cases hundurable
    · refine .inr ⟨⟨?_, ?_⟩, hcovered.mono hhalf.2⟩ <;> rw [hendpoint]
      · exact hfinal.phase
      · exact hfinal.last


/-- Nothing was put, and the checkpoints are as they were. -/
theorem Tracked.settles (h : Tracked host sent w) {t : Option (ClaimantSession V)}
    (ht : ∀ s ∈ t, s.Stage ∧ (s.phase ≠ .terminal → s.carrier = host.carrier) ∧
      Stands host sent w.emitted w.confirmed s) : Tracked host sent { w with live := t } :=
  ⟨h.unique, h.confirmed, ht⟩

theorem Stands.withVerifier (h : Stands host sent emitted confirmed s) (v : V) :
    Stands host sent emitted confirmed (s.withVerifier v) := by
  cases h with
  | ended hterminal => exact .ended hterminal
  | starting hstarting hsent hnone =>
    have hsame : s.withVerifier v = s := by
      rw [ClaimantSession.withVerifier, hstarting.endpoint, Option.map_none, ← hstarting.endpoint]
    rw [hsame]
    exact .starting hstarting hsent hnone
  | open_ hdrives hgate hspent hsecured =>
    refine .open_ (hdrives.withVerifier v) hgate (hspent.withEndpoint _) ?_
    obtain hearly | ⟨hfinal, hcovered⟩ := hsecured
    · exact .inl hearly
    · exact .inr ⟨⟨hfinal.phase, hfinal.last⟩, hcovered.mono fun p => id⟩
  | gated hdrives hgate hemitted hholds hfinal hspent howes hnone =>
    exact .gated (hdrives.withVerifier v) hgate hemitted hholds ⟨hfinal.phase, hfinal.last⟩
      (hspent.withEndpoint _) howes hnone

omit [BodyVerifier V] in
theorem withApplication_injective (h : s.withApplication e = s.withApplication e') : e = e' := by
  have happlication := congrArg application h
  rw [withApplication_application, withApplication_application] at happlication
  exact Option.some.inj happlication

/-- An own object that fails halfway leaves what preparing its frame left. -/
theorem prepareApplicationObject_torn (he : s.application = some e)
    (hgate : s.persistenceGate = none) (hphase : s.phase = .established)
    (hkind : preFinal object.kind = true) {error : Error}
    (h : prepareApplicationObject object s = .error error (s.withApplication e')) :
    e' = Call.after (prepareFrame object e) := by
  unfold prepareApplicationObject at h
  rw [Call.run_bind (Call.run_get s), if_neg (by simp [hgate, hphase, hkind])] at h
  refine withApplication_injective (s := s) ?_
  refine Call.Meets.error (Q := fun _ _ => True)
    (E := fun _ t => t = s.withApplication (Call.after (prepareFrame object e))) ?_ h
  rw [Call.meets_bind, onApplication, Call.meets_zoom?]
  refine ⟨fun hnone => (by cases he.symm.trans hnone), ?_⟩
  intro e₁ he₁
  obtain rfl := Option.some.inj (he.symm.trans he₁)
  refine Call.meets_iff.mpr ⟨fun prepared e' hprepare => ?_, fun error e' hprepare => ?_⟩
  · obtain ⟨sequence, frame⟩ := prepared
    rw [hprepare, Call.after_ok]
    simp only [Call.meets_bind, Call.meets_ofExcept, Call.meets_pure]
    exact ⟨fun _ _ => trivial, fun _ _ => rfl⟩
  · rw [hprepare, Call.after_error]
    rfl

/-- A call that fails halfway leaves a state that still fits. -/
theorem Stands.torn (h : Stands host sent emitted confirmed s) (hs : s.Stage)
    (hsafe : RefusesInTime c s) (htears : s.Tears c) (he : s.application = some e)
    (hphase : s.phase = .established) (hgate : s.persistenceGate = none) {error : Error}
    (hcall : call key c s = .error error (s.withApplication e'))
    (hs' : (s.withApplication e').Stage) :
    Stands host sent emitted confirmed (s.withApplication e') := by
  obtain ⟨hdrives, hspent, hsecured⟩ := h.ungated he hgate (by simp [hphase])
  have hdrives' := hs'.drives (s.withApplication_application e')
  cases htears with
  | @prepares e₁ object he₁ _ _ hkind =>
    obtain rfl := Option.some.inj (he.symm.trans he₁)
    have hattempt := e.prepareFrame_attempts object
    rw [← prepareApplicationObject_torn he hgate hphase hkind hcall] at hattempt
    cases hattempt with
    | refused hrelay hchannel hrefused =>
      obtain ⟨endpoint, channel, relay⟩ := e'
      obtain rfl : relay = e.relay := hrelay
      obtain rfl : channel = e.channel := hchannel
      refine .open_ hdrives' hgate (hspent.withEndpoint endpoint) ?_
      obtain ⟨v, hsame⟩ := hrefused
      have hphases : endpoint.phase = e.endpoint.phase ∨ endpoint.phase = .terminal := by
        obtain rfl | rfl := hsame
        · exact .inl rfl
        · exact .inr rfl
      obtain ⟨hundurable, hnone⟩ | ⟨hfinal, hcovered⟩ := hsecured
      · refine .inl ⟨?_, hnone⟩
        obtain hkept | hended := hphases
        · rw [hkept]
          exact hundurable
        · rw [hended]
          rfl
      · refine .inr ⟨⟨?_, ?_⟩, hcovered.mono fun p => id⟩
        · obtain hkept | hended := hphases
          · rw [hkept]
            exact hfinal.phase
          · exact .inr hended
        · obtain rfl | rfl := hsame <;> exact hfinal.last
    | accepted haccepts hadvances =>
      refine .open_ hdrives' hgate (hspent.advances hadvances) ?_
      obtain ⟨-, hnone⟩ | ⟨hfinal, -⟩ := hsecured
      · refine .inl ⟨haccepts.before_final ?_ ?_, hnone⟩ <;>
        · intro hno
          rw [hno] at hkind
          cases hkind
      · obtain ⟨happroved, hrefuses⟩ := haccepts.after_final hfinal.phase hkind
        refine absurd ?_ (hsafe object rfl hrefuses)
        rw [endpointPhase, (application_eq_some.mp he).1, Option.map_some, happroved]
  | @acknowledges e₁ sequence now nonce hmessage he₁ _ _ hdurable hspoils =>
    obtain rfl := Option.some.inj (he.symm.trans he₁)
    obtain ⟨_, -, hempty⟩ := hs.running_of hphase
    have hdelivered := (receiveDurable_acknowledged hdrives hgate (hempty hgate) hphase hdurable
      hmessage).error hcall
    obtain ⟨hnot, -⟩ | ⟨-, hsame⟩ := hdelivered
    · exact absurd hspoils hnot
    obtain rfl := withApplication_injective hsame
    have hack := RelayState.acknowledgeApplicationFrame_eq_ok.mpr ⟨hspoils.outstanding, rfl⟩
    obtain ⟨hadvances, hnone⟩ := Established.advances_acknowledged hack
    refine .open_ hdrives' hgate (hspent.advances hadvances) ?_
    obtain hearly | ⟨hfinal, hcovered⟩ := hsecured
    · exact .inl hearly
    · exact .inr ⟨⟨hfinal.phase, hfinal.last⟩, hcovered.mono fun p hp => absurd hp (hnone p)⟩

theorem Tracked.call_error (h : Tracked host sent w) (hlive : w.live = some s)
    (hsafe : RefusesInTime c s) {error : Error}
    (hcall : call host.wrappingKey c s = .error error s') :
    Tracked host sent { w with live := some s' } := by
  obtain ⟨hs, hcarrier, hstands⟩ := h.live s hlive
  have hfailed : s.Failed c s' := (call_fails hs c).error hcall
  have hs' := hfailed.stage hs
  refine h.settles fun t ht => ?_
  obtain rfl := Option.some.inj ht
  refine ⟨hs', ?_⟩
  cases hfailed with
  | same _ hsame =>
    obtain rfl | ⟨v, rfl⟩ := hsame
    · exact ⟨hcarrier, hstands⟩
    · exact ⟨hcarrier, hstands.withVerifier v⟩
  | ended => exact ⟨fun hopen => absurd rfl hopen, .ended rfl⟩
  | torn htears he hphase hgate =>
    exact ⟨hcarrier, hstands.torn hs hsafe htears he hphase hgate hcall hs'⟩

/-- A session restored from the confirmed checkpoint fits what was put. -/
theorem restored_stands {stored : UInt64 × Bytes} {e₀ : Established V} {r : ClaimantReturn V}
    (hholds : Holds host stored e₀) (hspent : e₀.Spent sent)
    (hrestore : (machine host).restore r stored = .ok s) :
    s.Stage ∧ (s.phase ≠ .terminal → s.carrier = host.carrier) ∧
      Stands host sent emitted (some stored) s := by
  obtain ⟨hstage, hcarrier, hgate, e, hdrives, hfinal, hchannel, hrelay⟩ :=
    restore_held hholds hrestore
  have howes : ∀ p, e.Owes p ↔ e₀.Owes p := by
    intro p
    exact Established.owes_congr (by rw [hrelay]) (by rw [hrelay]) (by rw [hrelay])
  have hsame : e₀.Advances e := Established.advances_of_sending (by rw [hrelay])
    (by rw [hchannel]) fun p => (howes p).mp
  exact ⟨hstage, fun _ => hcarrier, .open_ hdrives hgate (hspent.advances hsame)
    (.inr ⟨hfinal, stored, rfl, e₀, hholds, hspent, fun p => (howes p).mp⟩)⟩

/-- Every act of a run with crashes keeps the record. -/
theorem Tracked.step (h : Tracked host sent w)
    (a : Recovery.Act ClaimantCall (ClaimantReturn V))
    (ha : Recovery.Machine.Meets RefusesInTime a w) :
    Tracked host (sent ++ ClaimantEffect.sealedPuts
        (Runs.effects ((machine host).step .confirmed a w)))
      (Call.after ((machine host).step .confirmed a w)) := by
  have hnothing : ClaimantEffect.sealedPuts [] = [] := rfl
  cases a with
  | call c =>
    cases hlive : w.live with
    | none =>
      rw [Recovery.Machine.step_call_down hlive, Runs.effects_error, hnothing, List.append_nil]
      exact h
    | some s =>
      have hsafe : RefusesInTime c s := ha s hlive
      rw [Recovery.Machine.step_call hlive]
      cases hcall : (machine host).call c s with
      | ok effects s' => exact h.call_ok hlive hsafe hcall
      | error error s' =>
        dsimp only
        rw [Runs.effects_error, hnothing, List.append_nil]
        exact h.call_error hlive hsafe hcall
  | crash r =>
    have hdown : Tracked host sent { w with live := none } := h.settles (by simp)
    cases hconfirmed : Recovery.Source.of w .confirmed with
    | none =>
      rw [Recovery.Machine.step_crash_lost hconfirmed, Runs.effects_error, hnothing,
        List.append_nil]
      exact hdown
    | some stored =>
      rw [Recovery.Machine.step_crash hconfirmed]
      cases hrestore : (machine host).restore r stored with
      | error error =>
        dsimp only
        rw [Runs.effects_error, hnothing, List.append_nil]
        exact hdown
      | ok s =>
        dsimp only
        rw [Runs.effects_ok, hnothing, List.append_nil]
        refine h.settles fun t ht => ?_
        obtain rfl := Option.some.inj ht
        obtain ⟨e₀, hholds, hspent⟩ := h.confirmed stored hconfirmed
        rw [show w.confirmed = some stored from hconfirmed]
        exact restored_stands hholds hspent hrestore

end Step

/-! ### Every run -/

/-- A new claimant, or one restored from a checkpoint that is already confirmed. -/
inductive Opens (host : ClaimantHost) :
    Recovery.World (ClaimantSession V) (UInt64 × Bytes) → Prop
  | fresh (input : ClaimantInput) (v : V) : input.carrier = host.carrier →
      Opens host (.start (new input v))
  | reopened {stored : UInt64 × Bytes} {e₀ : Established V} {r : ClaimantReturn V}
      {s : ClaimantSession V} : Holds host stored e₀ → e₀.Spent [] →
      (machine host).restore r stored = .ok s → Opens host ⟨some s, none, some stored⟩

variable {w₀ w : Recovery.World (ClaimantSession V) (UInt64 × Bytes)}

theorem Opens.tracked (h : Opens host w₀) : Tracked host [] w₀ := by
  have hunique : Unrepeated [] := fun p hp => by cases hp
  cases h with
  | fresh input v hcarrier =>
    refine ⟨hunique, by simp [Recovery.World.start], fun t ht => ?_⟩
    obtain rfl := Option.some.inj ht
    have hstage : (new input v).Stage := (Begins.new input v).stage
    refine ⟨hstage, fun _ => hcarrier, ?_⟩
    cases hstage with
    | starting hstarting => exact .starting hstarting rfl rfl
    | awaiting hdrives => cases hdrives.application
    | running hdrives => cases hdrives.application
  | @reopened stored e₀ r s hholds hspent hrestore =>
    refine ⟨hunique, ?_, fun t ht => ?_⟩
    · rintro _ ⟨⟩
      exact ⟨e₀, hholds, hspent⟩
    · obtain rfl := Option.some.inj ht
      exact restored_stands hholds hspent hrestore

theorem Opens.run (h : Opens host w₀)
    (acts : List (Recovery.Act ClaimantCall (ClaimantReturn V)))
    (hacts : Runs.Along ((machine host).step .confirmed)
      (Recovery.Machine.Meets RefusesInTime) w₀ acts) :
    Tracked host (ClaimantEffect.sealedPuts (Runs.released ((machine host).step .confirmed) w₀ acts))
      (Runs.after ((machine host).step .confirmed) w₀ acts) := by
  refine Runs.invariant_along ((machine host).step .confirmed)
    (P := fun acts w => Tracked host
      (ClaimantEffect.sealedPuts (Runs.released ((machine host).step .confirmed) w₀ acts)) w)
    h.tracked ?_ acts hacts
  intro acts a h ha
  rw [Runs.released_concat, ClaimantEffect.sealedPuts_append]
  exact h.step a ha

/-- In every run with crashes that each return to the latest confirmed checkpoint, of a
claimant that refuses only before its final approval: no relay sequence and no channel
counter ever goes out with two different frames. -/
theorem counters_unrepeated (key : Octets 32) (input : ClaimantInput) (v : V)
    (acts : List (Recovery.Act ClaimantCall (ClaimantReturn V)))
    (hacts : Runs.Along ((machine ⟨key, input.carrier⟩).step .confirmed)
      (Recovery.Machine.Meets RefusesInTime) (.start (new input v)) acts) :
    let sent := ClaimantEffect.sealedPuts (Runs.released
      ((machine ⟨key, input.carrier⟩).step .confirmed) (.start (new input v)) acts)
    ∀ p ∈ sent, ∀ p' ∈ sent, p.sequence = p'.sequence ∨ p.counter = p'.counter → p = p' :=
  ((Opens.fresh input v rfl).run acts hacts).unique

/-- The confirmed checkpoint after a call owes what the call puts. -/
def Backed (host : ClaimantHost) (c : ClaimantCall) (effects : List ClaimantEffect)
    (s' : ClaimantSession V) (w : Recovery.World (ClaimantSession V) (UInt64 × Bytes))
    (p : SealedPut) : Prop :=
  (c = .resumeCachedFrame ∨ ∃ generation, c = .checkpointPersisted generation) ∧
    ∃ stored ∈ ((machine host).stored c effects s' w).confirmed, ∃ e₀ : Established V,
      Holds host stored e₀ ∧ e₀.Owes p

/-- A session behind its final approval puts only what its confirmed checkpoint has cached. -/
theorem Tracked.durable_put {w : Recovery.World (ClaimantSession V) (UInt64 × Bytes)}
    (h : Tracked host sent w) (hlive : w.live = some s) (hsafe : RefusesInTime c s)
    (hdurable : s.hasDurableEndpointPhase = true)
    (hcall : call host.wrappingKey c s = .ok effects s') :
    ∀ p ∈ ClaimantEffect.sealedPuts effects, Backed host c effects s' w p := by
  intro p hp
  obtain ⟨hs, -, hstands⟩ := h.live s hlive
  have hopen : s.phase ≠ .terminal := by
    intro hterminal
    obtain ⟨error, hfails⟩ := call_terminal host.wrappingKey c hs hterminal
    rw [hfails] at hcall
    cases hcall
  have hphases : ∀ e : Established V, s.application = some e →
      durable e.endpoint.phase = true := by
    intro e he
    rw [hasDurableEndpointPhase, (application_eq_some.mp he).1] at hdurable
    exact hdurable
  have hbare : ¬∀ effect ∈ effects, effect.Bare := by
    intro hbare
    rw [ClaimantEffect.sealedPuts_bare hbare] at hp
    cases hp
  have hputless : ¬∀ effect ∈ effects, effect.Putless :=
    fun hputless => hbare fun effect heffect => (hputless effect heffect).bare
  cases call_progress hs hcall with
  | silent hnone => exact absurd hnone hputless
  | confirmed _ _ _ _ _ _ _ _ hnone => exact absurd hnone hputless
  | taken _ _ _ _ _ hnone => exact absurd hnone hputless
  | ended hnone => exact absurd hnone hputless
  | bootstrapped _ _ _ _ _ hnone => exact absurd hnone hbare
  | authorised => cases hp
  | acknowledged => cases hp
  | receipt => cases hp
  | sealed_ => cases hp
  | @sent e e' object sequence body hcall' hphase he hgate hkind hprepares =>
    obtain ⟨-, -, hsecured⟩ := hstands.ungated he hgate hopen
    have hrefusal : ¬(e.endpoint.phase = .finalApproved ∧ object.kind = .refusal) := by
      rintro ⟨hfinal, hrefuses⟩
      refine hsafe object hcall' hrefuses ?_
      rw [endpointPhase, (application_eq_some.mp he).1, Option.map_some, hfinal]
    obtain ⟨-, hnone⟩ := hprepares.secured hkind hrefusal hsecured
    obtain ⟨hundurable, -⟩ | ⟨-, stored, hstored, -⟩ := hsecured
    · rw [hphases e he] at hundurable
      cases hundurable
    · cases hnone.symm.trans hstored
  | @persisted generation hc hgate =>
    subst hc
    refine ⟨.inr ⟨generation, rfl⟩, ?_⟩
    cases hstands with
    | ended hterminal => exact absurd hterminal hopen
    | starting hstarting => cases hgate.symm.trans hstarting.ungated
    | open_ _ hungated => cases hgate.symm.trans hungated
    | @gated e stored _ hgated hemitted hholds _ _ howes hnone =>
      obtain rfl := Option.some.inj (hgate.symm.trans hgated)
      rw [stored_persisted hemitted hnone]
      exact ⟨stored, rfl, e, hholds, howes p hp⟩
  | @resumed e frame sequence body hc hphase he hgate hdurable' hcached hsequence hbody =>
    subst hc
    refine ⟨.inl rfl, ?_⟩
    obtain ⟨-, -, ⟨hundurable, -⟩ | ⟨-, stored, hstored, e₀, hholds, -, hsub⟩⟩ :=
      hstands.ungated he hgate hopen
    · rw [hdurable'] at hundurable
      cases hundurable
    · have hnone : ∀ effect ∈ [ClaimantEffect.send (.put sequence body)],
          effect.checkpoint? = none := by
        intro effect heffect
        rw [List.mem_singleton.mp heffect]
        rfl
      rw [Recovery.Machine.stored_of_none hnone fun _ => rfl]
      exact ⟨stored, hstored, e₀, hholds, hsub p (resumed_owes hcached hsequence hbody p hp)⟩

/-- In every such run, of a new claimant or a restored one: whatever sealed frame it puts
behind its final approval, a resumption or a confirmed checkpoint puts it, and the
checkpoint that is confirmed by then has this very frame cached. -/
theorem durable_puts_confirmed (h₀ : Opens host w₀)
    (acts : List (Recovery.Act ClaimantCall (ClaimantReturn V)))
    (hacts : Runs.Along ((machine host).step .confirmed)
      (Recovery.Machine.Meets RefusesInTime) w₀ acts)
    (hlive : (Runs.after ((machine host).step .confirmed) w₀ acts).live = some s)
    (hdurable : s.hasDurableEndpointPhase = true) (hsafe : RefusesInTime c s)
    (hcall : call host.wrappingKey c s = .ok effects s') :
    ∀ p ∈ ClaimantEffect.sealedPuts effects,
      Backed host c effects s' (Runs.after ((machine host).step .confirmed) w₀ acts) p :=
  (h₀.run acts hacts).durable_put hlive hsafe hdurable hcall

end ClaimantSession
end CredentialV2

/-! ### Two sample runs -/

namespace CredentialV2
open Codec Codec.Cbor Calls

attribute [local instance] Primitives.transparent

namespace ClaimantSession

abbrev SampleAct := Recovery.Act ClaimantCall (ClaimantReturn Unit)

def rehearsed (acts : List SampleAct) :
    Recovery.World (ClaimantSession Unit) (UInt64 × Bytes) :=
  Runs.after ((machine ⟨fill 32 [14], .sample⟩).step .confirmed) (.start (new .sample ())) acts

theorem claimed_recognised :
    (ServerMessage.claimedV2 (fill 32 [1]) (fill 32 [9]) 100).recognised = true := rfl

theorem acknowledged_recognised : (ServerMessage.acknowledged 1).recognised = true := rfl

def sharing : List SampleAct :=
  [.call (.receive (.ok ⟨.welcome, ServerMessage.recognised_welcome⟩) 0),
    .call (.receive (.ok ⟨.claimedV2 (fill 32 [1]) (fill 32 [9]) 100, claimed_recognised⟩) 0),
    .call (.receive (.ok ⟨.frame 0 allocatorShare, allocatorShare_recognised⟩) 1),
    .call (.receive (.ok ⟨.acknowledged 0, ServerMessage.recognised_acknowledged_zero⟩) 2)]

def allocatorFinished : Bytes :=
  match (rehearsed sharing).live.bind pendingChannel with
  | none => []
  | some pending =>
    ((encodeFrame (.finished .allocator pending.peerFinished)).toOption).getD []

theorem allocatorFinished_recognised :
    (ServerMessage.frame 1 allocatorFinished).recognised = true := by
  decide +kernel

/-- The Finished values are exchanged and the profile is authorised. -/
def establishing : List SampleAct :=
  sharing ++ [.call (.receive (.ok ⟨.frame 1 allocatorFinished, allocatorFinished_recognised⟩) 3),
    .call (.receive (.ok ⟨.acknowledged 1, acknowledged_recognised⟩) 4),
    .call (.authoriseAuthenticatedProfile fun _ _ => .error .schema)]

theorem new_selection :
    (AccountSelect.object ⟨fill 32 [2], ascii "https://issuer.example/card", none⟩).isOk = true := by
  decide +kernel

def selection : Object := value _ new_selection

/-- An account selection goes out, and goes out again. -/
def selecting : List SampleAct :=
  establishing ++ [.call (.prepareApplicationObject selection),
    .call (.prepareApplicationObject selection)]

theorem selection_kind : selection.kind = .accountSelect := by
  have h : AccountSelect.object ⟨fill 32 [2], ascii "https://issuer.example/card", none⟩ =
    .ok selection := eq_ok_value _ new_selection
  unfold AccountSelect.object Object.new at h
  split_ifs at h
  rw [← Except.ok.inj h]

theorem refusesInTime_selection (s : ClaimantSession Unit) :
    RefusesInTime (.prepareApplicationObject selection) s := by
  intro object hsame hrefuses
  obtain rfl := ClaimantCall.prepareApplicationObject.inj hsame
  cases selection_kind.symm.trans hrefuses

theorem counters_unrepeated_sample :
    (rehearsed establishing).live.any (fun s => s.phase == .established) = true ∧
      let sent := ClaimantEffect.sealedPuts (Runs.released
        ((machine ⟨fill 32 [14], ClaimantInput.sample.carrier⟩).step .confirmed)
        (.start (new .sample ())) selecting)
      ∀ p ∈ sent, ∀ p' ∈ sent, p.sequence = p'.sequence ∨ p.counter = p'.counter → p = p' := by
  refine ⟨by decide +kernel, counters_unrepeated (fill 32 [14]) .sample () selecting ?_⟩
  refine (Runs.along_append _).mpr ⟨?_, fun s _ => refusesInTime_selection s,
    fun s _ => refusesInTime_selection s, trivial⟩
  refine (Runs.along_iff _).mpr fun before a more hacts => ?_
  have hmem : a ∈ establishing := by
    rw [hacts]
    simp
  simp only [establishing, sharing, List.cons_append, List.nil_append, List.mem_cons,
    List.not_mem_nil, or_false] at hmem
  rcases hmem with rfl | rfl | rfl | rfl | rfl | rfl | rfl <;> rintro s - object ⟨⟩

theorem coherent_sentPayload : sentPayload.Coherent where
  side_eq := rfl
  live := rfl
  awaiting := rfl
  sealed_ := rfl
  sound := by
    refine ⟨fun _ => by decide, ?_, ?_⟩
    · rintro _ ⟨⟩ -
      rfl
    · rintro _ ⟨⟩ _ ⟨⟩

/-- The one frame that is cached has the counter below the next one. -/
theorem spent_sentPayload : Established.Spent [] sentPayload := by
  have howes : ∀ p, sentPayload.Owes p → p.sequence = 0 ∧ p.counter = 0 := by
    rintro p ⟨frame, hcached, hcounter, hsequence, -⟩
    obtain rfl := Option.some.inj hcached
    exact ⟨(Except.ok.inj hsequence).symm, (Option.some.inj hcounter).symm⟩
  refine ⟨?_, ?_, ?_⟩
  · rintro p p' (hp | hp) (hp' | hp') -
    · cases hp
    · cases hp
    · cases hp'
    · exact hp.unique hp'
  · rintro p (hp | hp)
    · cases hp
    · rw [(howes p hp).1]
      decide
  · rintro p (hp | hp) n ⟨⟩
    · cases hp
    · rw [(howes p hp).2]
      decide

theorem seals_sample : ∃ endpoint, Endpoint.sealCheckpoint sentPayload.channel
    sentPayload.relay (fill 32 [14]) 1 none (fill 12 [15]) 50 sentPayload.endpoint =
      .ok sentPayloadCheckpoint endpoint :=
  Call.verdict_eq_ok.mp (eq_ok_value _ _)

theorem holds_sentPayload :
    Holds ⟨fill 32 [14], .sample⟩ (1, sentPayloadCheckpoint) sentPayload := by
  obtain ⟨endpoint, hseal⟩ := seals_sample
  have hcarrier : sentPayload.endpoint.carrier = .sample := by simp only [sentPayload]
  exact holds_of_sealed hseal coherent_sentPayload rfl hcarrier

theorem restores_sample :
    (machine ⟨fill 32 [14], .sample⟩).restore ⟨200, ()⟩ (1, sentPayloadCheckpoint) = .ok sample := by
  simp only [machine_restore]
  exact eq_ok_value _ _

theorem resumes_sample :
    (Call.verdict (call (fill 32 [14]) .resumeCachedFrame sample)).isOk = true := by
  decide +kernel

/-- A claimant restored from its checkpoint puts the cached frame again. -/
theorem durable_puts_confirmed_sample : ∃ effects s',
    call (fill 32 [14]) .resumeCachedFrame sample = .ok effects s' ∧
      (ClaimantEffect.sealedPuts effects).map (fun p => (p.sequence, p.counter)) = [(0, 0)] ∧
      ∀ p ∈ ClaimantEffect.sealedPuts effects, Backed ⟨fill 32 [14], .sample⟩ .resumeCachedFrame
        effects s' ⟨some sample, none, some (1, sentPayloadCheckpoint)⟩ p := by
  obtain ⟨s', hcall⟩ := Call.verdict_eq_ok.mp (eq_ok_value _ resumes_sample)
  refine ⟨_, s', hcall, by decide +kernel, ?_⟩
  have hopens := Opens.reopened holds_sentPayload spent_sentPayload restores_sample
  refine durable_puts_confirmed hopens [] trivial rfl (by decide +kernel) ?_ hcall
  rintro object ⟨⟩

end ClaimantSession
end CredentialV2
end CbclPairing
