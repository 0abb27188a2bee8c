import CbclPairing.Contracts
import CbclPairing.CredentialV2.ClaimantSteps

/-! Where the endpoint of a claimant session sits, and what one call makes of it: an
endpoint that is over stays so, and one that waits for its Receipt is kept or ends. -/
namespace CbclPairing
namespace CredentialV2
open Codec Codec.Cbor Calls

variable [Primitives] {V : Type}

/-! ### The endpoint -/

omit [Primitives] in
theorem nextPhase_payloadSent {kind : Kind} {next : Phase}
    (h : nextPhase .payloadSent kind = some next) : next = .terminal := by
  cases kind <;> simp [nextPhase] at h
  exact h.symm

namespace Endpoint

/-- Everything the wait for the Receipt rests on. -/
structure Kept (e e' : Endpoint V) : Prop where
  side : e'.side = e.side
  carrier : e'.carrier = e.carrier
  phase : e'.phase = e.phase
  intentDigest : e'.intentDigest = e.intentDigest
  last : e'.last = e.last

theorem kept_self (e : Endpoint V) : e.Kept e := ⟨rfl, rfl, rfl, rfl, rfl⟩

theorem kept_verifier (e : Endpoint V) (v : V) : e.Kept { e with bodyVerifier := v } :=
  ⟨rfl, rfl, rfl, rfl, rfl⟩

theorem kept_stamped (e : Endpoint V) (generation : UInt64) (nonce : Octets 12) :
    e.Kept (e.stamped generation nonce) := ⟨rfl, rfl, rfl, rfl, rfl⟩

theorem Kept.trans {e e' e'' : Endpoint V} (h : e.Kept e') (h' : e'.Kept e'') : e.Kept e'' :=
  ⟨h'.side.trans h.side, h'.carrier.trans h.carrier, h'.phase.trans h.phase,
    h'.intentDigest.trans h.intentDigest, h'.last.trans h.last⟩

variable [BodyVerifier V]

/-- What one call of the reducer makes of an endpoint that is over or waits. -/
structure Moves (e e' : Endpoint V) : Prop where
  side : e'.side = e.side
  terminal : e.phase = .terminal → e'.phase = .terminal
  waits : e.phase = .payloadSent → e'.phase = .terminal ∨ e.Kept e'

omit [BodyVerifier V] in
theorem Kept.moves {e e' : Endpoint V} (h : e.Kept e') : e.Moves e' :=
  ⟨h.side, fun hphase => h.phase.trans hphase, fun _ => .inr h⟩

omit [BodyVerifier V] in
theorem Moves.trans {e e' e'' : Endpoint V} (h : e.Moves e') (h' : e'.Moves e'') :
    e.Moves e'' := by
  refine ⟨h'.side.trans h.side, fun hphase => h'.terminal (h.terminal hphase), ?_⟩
  intro hphase
  obtain hterminal | hkept := h.waits hphase
  · exact .inl (h'.terminal hterminal)
  · exact (h'.waits (hkept.phase.trans hphase)).imp_right hkept.trans

omit [BodyVerifier V] in
theorem moves_terminal (e : Endpoint V) (v : V) :
    e.Moves { e with bodyVerifier := v, phase := .terminal } :=
  ⟨rfl, fun _ => rfl, fun _ => .inl rfl⟩

omit [BodyVerifier V] in
theorem Refused.moves {e e' : Endpoint V} (h : Refused e e') : e.Moves e' := by
  obtain ⟨v, rfl | rfl⟩ := h
  · exact (e.kept_verifier v).moves
  · exact e.moves_terminal v

omit [BodyVerifier V] in
theorem Accepts.moves {e e' : Endpoint V} {object : Object} {sender : Side}
    (h : Accepts object sender e e') : e.Moves e' := by
  refine ⟨h.kept.2.1, ?_, ?_⟩
  · intro hphase
    cases h with
    | accountSelect _ _ _ hbegin => rw [hphase] at hbegin; cases hbegin
    | sentOffer _ _ _ hpre => rw [hphase] at hpre; cases hpre
    | receivedOffer _ _ _ hpre => rw [hphase] at hpre; cases hpre
    | successor v next _ hsucceeds => exact absurd hphase hsucceeds.open_
  · intro hphase
    cases h with
    | accountSelect _ _ _ hbegin => rw [hphase] at hbegin; cases hbegin
    | sentOffer _ _ _ hpre => rw [hphase] at hpre; cases hpre
    | receivedOffer _ _ _ hpre => rw [hphase] at hpre; cases hpre
    | successor v next _ hsucceeds =>
      have hstep := hsucceeds.step
      rw [hphase] at hstep
      exact .inl (nextPhase_payloadSent hstep)

theorem apply_moves (e : Endpoint V) (object : Object) (sender : Side) :
    (apply object sender).Meets (fun _ => e.Moves) (fun _ => e.Moves) e := by
  have houtcome := apply_outcome e object sender
  rw [Call.meets_iff]
  constructor
  · intro advance e' h
    rw [h] at houtcome
    cases houtcome with
    | retransmission => exact e.kept_self.moves
    | accepted _ _ haccepts => exact haccepts.moves
  · intro error e' h
    rw [h] at houtcome
    cases houtcome with
    | refused hrefused => exact hrefused.moves

omit [BodyVerifier V] in
theorem receiveOffer_moves (e : Endpoint V) (object : Object) (check : OfferCheck) :
    (receiveOffer object check).Meets (fun _ => e.Moves) (fun _ => e.Moves) e := by
  have houtcome := receiveOffer_outcome e object check
  rw [Call.meets_iff]
  constructor
  · intro advance e' h
    rw [h] at houtcome
    cases houtcome with
    | retransmission => exact e.kept_self.moves
    | accepted _ _ haccepts => exact haccepts.moves
  · intro error e' h
    rw [h] at houtcome
    cases houtcome with
    | refused hrefused => exact hrefused.moves

end Endpoint

namespace ClaimantSession

/-! ### Sessions -/

/-- Where the endpoint of a session sits: with its channel and relay, and untouched
until the profile is authorised. -/
def Seated (s : ClaimantSession V) : Prop :=
  ∀ e, s.endpoint = some e → e.side = .claimant ∧ s.relay.isSome = true ∧
    s.channel.isSome = true ∧
    (s.phase = .established ∨ s.phase = .awaitProfileAuthorisation ∧ e.phase = .begin)

def Over (s : ClaimantSession V) : Prop := s.endpoint = none ∧ s.phase = .terminal

/-- What a call that takes no receipt makes of a session. -/
structure Steps (s s' : ClaimantSession V) : Prop where
  seated : s'.Seated
  pending : s'.pendingRecoveredReceipt = true → s.pendingRecoveredReceipt = true
  staysOver : s.Over → s'.Over
  ended : ∀ e, s.endpoint = some e → e.phase = .terminal →
    s'.Over ∨ ∃ e', s'.endpoint = some e' ∧ e'.phase = .terminal

variable {s s' : ClaimantSession V}

theorem steps_self (h : s.Seated) : s.Steps s :=
  ⟨h, id, id, fun e he hphase => .inr ⟨e, he, hphase⟩⟩

theorem steps_terminate (s s' : ClaimantSession V) : s.Steps s'.terminate :=
  ⟨fun _ h => (by cases h), fun h => (by cases h), fun _ => ⟨rfl, rfl⟩, fun _ _ _ => .inl ⟨rfl,
  rfl⟩⟩

/-- A session without an endpoint that still has none. -/
theorem steps_early (hs : s.endpoint = none) (hphase : s.phase ≠ .terminal)
    (hs' : s'.endpoint = none) (hpending : s'.pendingRecoveredReceipt = s.pendingRecoveredReceipt) :
    s.Steps s' := by
  refine ⟨?_, fun h => hpending ▸ h, fun h => absurd h.2 hphase, ?_⟩
  · intro e he
    rw [hs'] at he
    cases he
  · intro e he
    rw [hs] at he
    cases he

/-- A session whose endpoint was made just now. -/
theorem steps_fresh {carrier : Carrier} {v : V} (hs : s.endpoint = none)
    (hphase : s.phase ≠ .terminal) (hs' : s'.endpoint = some (Endpoint.new .claimant carrier v))
    (hrelay : s'.relay.isSome = true) (hchannel : s'.channel.isSome = true)
    (hphase' : s'.phase = .awaitProfileAuthorisation)
    (hpending : s'.pendingRecoveredReceipt = s.pendingRecoveredReceipt) : s.Steps s' := by
  refine ⟨?_, fun h => hpending ▸ h, fun h => absurd h.2 hphase, ?_⟩
  · intro e he
    obtain rfl := Option.some.inj (hs'.symm.trans he)
    exact ⟨rfl, hrelay, hchannel, .inr ⟨hphase', rfl⟩⟩
  · intro e he
    rw [hs] at he
    cases he

/-- A session whose endpoint took one step. -/
theorem steps_moved {e e' : Endpoint V} (h : s.Seated) (hs : s.endpoint = some e)
    (hestablished : s'.phase = .established) (hs' : s'.endpoint = some e') (hmoves : e.Moves e')
    (hrelay : s'.relay.isSome = true) (hchannel : s'.channel.isSome = true)
    (hpending : s'.pendingRecoveredReceipt = s.pendingRecoveredReceipt) : s.Steps s' := by
  refine ⟨?_, fun h => hpending ▸ h, ?_, ?_⟩
  · intro e₁ he₁
    obtain rfl := Option.some.inj (hs'.symm.trans he₁)
    exact ⟨hmoves.side.trans (h e hs).1, hrelay, hchannel, .inl hestablished⟩
  · intro hover
    rw [hover.1] at hs
    cases hs
  · intro e₁ he₁ hphase
    obtain rfl := Option.some.inj (hs.symm.trans he₁)
    exact .inr ⟨e', hs', hmoves.terminal hphase⟩

theorem Seated.none_of_phase (h : s.Seated) (hestablished : s.phase ≠ .established)
    (hawait : s.phase ≠ .awaitProfileAuthorisation) : s.endpoint = none := by
  cases he : s.endpoint with
  | none => rfl
  | some e =>
    obtain ⟨-, -, -, hphase | ⟨hphase, -⟩⟩ := h e he
    · exact absurd hphase hestablished
    · exact absurd hphase hawait

/-- A guarded call that fails ends the session. -/
theorem guarded_fails {α : Type} {m : Call Error (ClaimantSession V) α}
    {Q : α → ClaimantSession V → Prop} {E : Error → ClaimantSession V → Prop}
    (hE : ∀ e (s' : ClaimantSession V), E e s'.terminate)
    (h : m.Meets Q (fun _ _ => True) s) : (guarded m).Meets Q E s := by
  unfold Call.Meets guarded at *
  cases hm : m s with
  | ok a t => simpa [hm] using h
  | error e t => exact hE e t

theorem guarded_meets {α : Type} {m : Call Error (ClaimantSession V) α}
    (h : m.Meets (fun _ => s.Steps) (fun _ _ => True) s) :
    (guarded m).Meets (fun _ => s.Steps) (fun _ => s.Steps) s :=
  guarded_fails (fun _ s' => s.steps_terminate s') h

theorem Steps.trans {s'' : ClaimantSession V} (h : s.Steps s') (h' : s'.Steps s'') :
    s.Steps s'' := by
  refine ⟨h'.seated, fun hp => h.pending (h'.pending hp), fun hover => h'.staysOver (h.staysOver hover), ?_⟩
  intro e he hterminal
  obtain hover | ⟨e', he', hterminal'⟩ := h.ended e he hterminal
  · exact .inl (h'.staysOver hover)
  · exact h'.ended e' he' hterminal'

theorem establish_meets {ack : Option ClaimantEffect} (h : s.Steps s') (hs : s'.endpoint = none)
    (hphase : s'.phase ≠ .terminal) :
    (establish ack).Meets (fun _ => s.Steps) (fun _ _ => True) s' := by
  unfold establish
  simp only [Call.meets_bind, Call.meets_get, Call.meets_ite, Call.meets_throw, Call.meets_orThrow,
    Call.meets_ofExcept, Call.meets_set, Call.meets_pure, implies_true, and_true, true_and]
  intro _ _ _ _ _ _ relay hrelay _ v _
  refine h.trans (steps_fresh hs hphase rfl ?_ rfl rfl rfl)
  rw [hrelay]
  rfl

theorem prepareFinished_meets (h : s.Steps s') (hs : s'.endpoint = none)
    (hphase : s'.phase ≠ .terminal) :
    prepareFinished.Meets (fun _ => s.Steps) (fun _ _ => True) s' := by
  unfold prepareFinished
  simp only [Call.meets_bind, Call.meets_get, Call.meets_ite, Call.meets_throw, Call.meets_orThrow,
    Call.meets_ofExcept, Call.meets_modify, implies_true, and_true, true_and, onRelay,
    Call.meets_zoom?]
  rintro ⟨state, localShare⟩ _ _ peerShare _ peerMessage _ pending _ relay _
  rw [Call.meets_iff]
  refine ⟨?_, fun _ _ _ => trivial⟩
  intro sequence relay' _ put _
  exact h.trans (steps_early hs hphase hs rfl)

/-- The session with another relay projection. -/
def withRelay (s : ClaimantSession V) (relay : RelayState) : ClaimantSession V :=
  { s with relay := some relay }

theorem onRelay_meets {α : Type} {m : Call Error RelayState α} {Q : α → ClaimantSession V → Prop}
    {E : Error → ClaimantSession V → Prop} (hnone : E .phase s)
    (hok : ∀ a relay relay', s.relay = some relay → m relay = .ok a relay' →
      Q a (s.withRelay relay'))
    (herror : ∀ e relay', E e (s.withRelay relay')) : (onRelay m).Meets Q E s := by
  rw [onRelay, Call.meets_zoom?]
  refine ⟨fun _ => hnone, ?_⟩
  intro relay hrelay
  rw [Call.meets_iff]
  exact ⟨fun a relay' hm => hok a relay relay' hrelay hm, fun e relay' _ => herror e relay'⟩

theorem steps_relay (h : s.Seated) (hestablished : s.phase = .established) {relay : RelayState} :
    s.Steps (s.withRelay relay) := by
  obtain hnone | ⟨e, he⟩ := Option.eq_none_or_eq_some s.endpoint
  · have hphase : s.phase ≠ .terminal := by
      rw [hestablished]
      decide
    exact steps_early hnone hphase hnone rfl
  · exact steps_moved h he hestablished he e.kept_self.moves rfl (h e he).2.2.1 rfl

theorem steps_early_relay (hnone : s.endpoint = none) (hphase : s.phase ≠ .terminal)
    {relay : RelayState} : s.Steps (s.withRelay relay) :=
  steps_early hnone hphase hnone rfl

theorem localAck_meets (h : s.Seated) (hphase : s.phase ≠ .terminal) (sequence : UInt8) :
    (localAck sequence).Meets (fun _ => s.Steps) (fun _ _ => True) s := by
  unfold localAck
  simp only [Call.meets_bind, Call.meets_get, Call.meets_orThrow, implies_true, and_true]
  intro relay hrelay
  by_cases happlied : relay.acknowledgementAlreadyApplied sequence = true
  · rw [if_pos happlied]
    exact steps_self h
  rw [if_neg happlied]
  by_cases hestablished : s.phase = .established
  · rw [if_pos hestablished, Call.meets_bind]
    refine onRelay_meets trivial ?_ fun _ _ => trivial
    intro _ _ relay' _ _
    exact steps_relay h hestablished
  rw [if_neg hestablished, Call.meets_bind]
  refine onRelay_meets trivial ?_ fun _ _ => trivial
  intro _ _ relay' _ _
  cases hp : s.phase with
  | shareSent =>
    have hnone : s.endpoint = none := h.none_of_phase hestablished (by rw [hp]; decide)
    have hstep : s.Steps (s.withRelay relay') := steps_early_relay hnone hphase
    dsimp only
    split_ifs
    · rw [Call.meets_bind]
      exact prepareFinished_meets hstep hnone hphase
    · exact hstep
    · trivial
  | finishedSent =>
    have hnone : s.endpoint = none := h.none_of_phase hestablished (by rw [hp]; decide)
    have hstep : s.Steps (s.withRelay relay') := steps_early_relay hnone hphase
    dsimp only
    split_ifs
    · exact hstep
    · exact establish_meets hstep hnone hphase
  | _ => trivial

/-- The session with another channel. -/
def withChannel (s : ClaimantSession V) (channel : SecureChannel) : ClaimantSession V :=
  { s with channel := some channel }

theorem onChannel_meets {α : Type} {m : Call Error SecureChannel α}
    {Q : α → ClaimantSession V → Prop} {E : Error → ClaimantSession V → Prop} (hnone : E .phase s)
    (hok : ∀ a channel channel', s.channel = some channel → m channel = .ok a channel' →
      Q a (s.withChannel channel'))
    (herror : ∀ e channel', E e (s.withChannel channel')) : (onChannel m).Meets Q E s := by
  rw [onChannel, Call.meets_zoom?]
  refine ⟨fun _ => hnone, ?_⟩
  intro channel hchannel
  rw [Call.meets_iff]
  exact ⟨fun a channel' hm => hok a channel channel' hchannel hm,
    fun e channel' _ => herror e channel'⟩

theorem steps_channel (h : s.Seated) (hestablished : s.phase = .established)
    {channel : SecureChannel} : s.Steps (s.withChannel channel) := by
  obtain hnone | ⟨e, he⟩ := Option.eq_none_or_eq_some s.endpoint
  · have hphase : s.phase ≠ .terminal := by
      rw [hestablished]
      decide
    exact steps_early hnone hphase hnone rfl
  · exact steps_moved h he hestablished he e.kept_self.moves (h e he).2.1 rfl rfl

theorem onEndpoint_moves {α : Type} {m : Call Error (Endpoint V) α}
    (hm : ∀ e, m.Meets (fun _ => e.Moves) (fun _ => e.Moves) e) (h : s.Seated)
    (hestablished : s.phase = .established) :
    (onEndpoint m).Meets (fun _ => s.Steps) (fun _ => s.Steps) s := by
  rw [onEndpoint, Call.meets_zoom?]
  refine ⟨fun _ => steps_self h, ?_⟩
  intro e he
  have hmoved : ∀ e', e.Moves e' → s.Steps { s with endpoint := some e' } := fun e' hmoves =>
    steps_moved h he hestablished rfl hmoves (h e he).2.1 (h e he).2.2.1 rfl
  exact (hm e).mono (fun _ e' => hmoved e') fun _ e' => hmoved e'

variable [BodyVerifier V]

theorem receiveObject_meets (h : s.Seated) (hestablished : s.phase = .established)
    (object : Object) (now : UInt64) :
    (receiveObject object now).Meets (fun _ => s.Steps) (fun _ => s.Steps) s := by
  have hself := steps_self h
  unfold receiveObject
  simp only [Call.meets_bind, Call.meets_get, Call.meets_ite, Call.meets_throw, Call.meets_orThrow,
    Call.meets_ofExcept]
  refine ⟨fun e _ => ⟨fun _ => ⟨fun _ => hself, fun _ => ?_⟩, fun _ => ?_⟩, fun _ => hself⟩
  · refine ⟨fun verifier _ => ⟨fun check _ => ?_, fun _ _ => hself⟩, fun _ => hself⟩
    exact onEndpoint_moves (fun e => e.receiveOffer_moves object check) h hestablished
  · exact onEndpoint_moves (fun e => e.apply_moves object e.side.opposite) h hestablished

theorem peerApplicationFrame_meets (h : s.Seated) (hestablished : s.phase = .established)
    (peerSeq : UInt8) (frame : Frame) (now : UInt64) :
    (peerApplicationFrame peerSeq frame now).Meets (fun _ => s.Steps) (fun _ _ => True) s := by
  unfold peerApplicationFrame
  rw [Call.meets_bind]
  refine onRelay_meets trivial ?_ fun _ _ => trivial
  intro _ _ relay _ _
  have hrelay : s.Steps (s.withRelay relay) := steps_relay h hestablished
  rw [Call.meets_bind]
  refine onChannel_meets trivial ?_ fun _ _ => trivial
  intro plaintext _ channel _ _
  have hchannel : s.Steps ((s.withRelay relay).withChannel channel) :=
    hrelay.trans (steps_channel hrelay.seated hestablished)
  simp only [Call.meets_bind, Call.meets_ofExcept, implies_true, and_true]
  intro object _
  have hobject := receiveObject_meets hchannel.seated hestablished object now
  refine hobject.mono ?_ fun _ _ _ => trivial
  intro advance s' hstep ack _
  have hdone := hchannel.trans hstep
  cases advance with
  | displayIntent display =>
    refine hdone.trans ⟨hdone.seated, id, id, ?_⟩
    intro e he hterminal
    exact .inr ⟨e, he, hterminal⟩
  | advanced => exact hdone
  | exactRetransmission => exact hdone

theorem peerFrame_meets (h : s.Seated) (hphase : s.phase ≠ .terminal) (peerSeq : UInt8)
    (body : Bytes) (now : UInt64) :
    (peerFrame peerSeq body now).Meets (fun _ => s.Steps) (fun _ _ => True) s := by
  unfold peerFrame
  simp only [Call.meets_bind, Call.meets_ofExcept, Call.meets_get, implies_true, and_true]
  intro frame _
  by_cases hestablished : s.phase = .established
  · rw [if_pos hestablished]
    exact peerApplicationFrame_meets h hestablished peerSeq frame now
  rw [if_neg hestablished, Call.meets_bind]
  refine onRelay_meets trivial ?_ fun _ _ => trivial
  intro _ _ relay _ _
  simp only [Call.meets_bind, Call.meets_ofExcept, Call.meets_get, implies_true, and_true]
  intro ack _
  have hsame : (s.withRelay relay).phase = s.phase := rfl
  rw [hsame]
  cases hp : s.phase with
  | shareSent =>
    have hnone : s.endpoint = none := h.none_of_phase hestablished (by rw [hp]; decide)
    dsimp only
    split_ifs
    · trivial
    simp only [Call.meets_bind, Call.meets_modify, Call.meets_orThrow, implies_true, and_true]
    intro relay' _
    split_ifs
    · exact steps_early hnone hphase hnone rfl
    · rw [Call.meets_bind]
      exact prepareFinished_meets (steps_early hnone hphase hnone rfl) hnone hphase
  | finishedSent =>
    have hnone : s.endpoint = none := h.none_of_phase hestablished (by rw [hp]; decide)
    dsimp only
    split_ifs
    · trivial
    simp only [Call.meets_bind, Call.meets_modify, Call.meets_orThrow, implies_true, and_true]
    intro relay' _
    split_ifs
    · exact steps_early hnone hphase hnone rfl
    · exact establish_meets (steps_early hnone hphase hnone rfl) hnone hphase
  | _ => trivial

theorem applyServer_meets (h : s.Seated) (hphase : s.phase ≠ .terminal) (message : ServerMessage)
    (now : UInt64) :
    (applyServer message now).Meets (fun _ => s.Steps) (fun _ _ => True) s := by
  unfold applyServer
  rw [Call.meets_bind, Call.meets_get]
  cases message with
  | welcome =>
    dsimp only
    split_ifs with hwait
    · have hnone : s.endpoint = none :=
        h.none_of_phase (by rw [hwait]; decide) (by rw [hwait]; decide)
      unfold welcomed
      simp only [Call.meets_bind, Call.meets_zoom?, Call.meets_modify, Call.meets_get,
        Call.meets_ofExcept, Call.meets_pure, implies_true, and_true, true_and]
      intro presence _
      rw [Call.meets_iff]
      refine ⟨?_, fun _ _ _ => trivial⟩
      intro token presence' _ put _
      exact steps_early hnone hphase hnone rfl
    · trivial
  | claimedV2 mailboxId membershipToken expiresAt =>
    dsimp only
    split_ifs with hwait
    · have hnone : s.endpoint = none :=
        h.none_of_phase (by rw [hwait]; decide) (by rw [hwait]; decide)
      unfold claimed
      simp only [Call.meets_bind, Call.meets_get, Call.meets_ite, Call.meets_throw,
        Call.meets_modify, Call.meets_ofExcept, implies_true, and_true, true_and]
      rintro _ ⟨state, share⟩ _
      dsimp only
      cases RelayState.queueBootstrapFrame (RelayState.new membershipToken) with
      | error e relay => trivial
      | ok sequence relay =>
        simp only [Call.meets_bind, Call.meets_modify, Call.meets_ofExcept, Call.meets_pure,
          implies_true, and_true]
        intro put _
        exact steps_early hnone hphase hnone rfl
    · trivial
  | frame peerSeq body => exact peerFrame_meets h hphase peerSeq body now
  | acknowledged seq => exact localAck_meets h hphase seq
  | pong => exact steps_self h
  | closed reason => exact s.steps_terminate s
  | error code => exact s.steps_terminate s
  | _ => trivial

theorem receive_meets (h : s.Seated) (input : ServerInput) (now : UInt64) :
    (receive input now).Meets (fun _ => s.Steps) (fun _ => s.Steps) s := by
  have hself := steps_self h
  unfold receive
  rw [Call.meets_bind, Call.meets_get]
  split_ifs with hbusy hterminal hexpired
  · exact hself
  · exact hself
  · exact s.steps_terminate s
  · apply guarded_meets
    cases input with
    | error e => trivial
    | ok message => exact applyServer_meets h hterminal message.val now

end ClaimantSession

theorem Established.prepareOutbound_moves [BodyVerifier V] (e : Established V) (object : Object) :
    (prepareOutbound object).Meets (fun _ e' => e.endpoint.Moves e'.endpoint)
      (fun _ e' => e.endpoint.Moves e'.endpoint) e := by
  have hself := e.endpoint.kept_self.moves
  unfold prepareOutbound
  rw [Call.meets_bind, Call.meets_get]
  by_cases hside : e.channel.localSide ≠ e.endpoint.side
  · rw [if_pos hside]
    exact hself
  rw [if_neg hside]
  cases e.relay.cachedOutbound with
  | some cached =>
    dsimp only
    split_ifs
    · exact hself
    · exact hself
  | none =>
    simp only [Call.meets_bind, Call.meets_ofExcept, onEndpoint, onChannel, onRelay,
      Call.meets_zoom]
    refine ⟨fun _ _ => ?_, fun _ _ => hself⟩
    refine (e.endpoint.apply_moves object e.endpoint.side).mono ?_ fun _ _ hmoves => hmoves
    intro advance endpoint hmoves
    split_ifs
    · exact hmoves
    rw [Call.meets_bind, Call.meets_zoom, Call.meets_iff]
    refine ⟨fun frame channel _ => ?_, fun _ _ _ => hmoves⟩
    rw [Call.meets_bind, Call.meets_zoom, Call.meets_iff]
    exact ⟨fun _ _ _ => hmoves, fun _ _ _ => hmoves⟩

namespace ClaimantSession

variable [BodyVerifier V] {s s' : ClaimantSession V}

omit [BodyVerifier V] in
theorem onApplication_moves {α : Type} {m : Call Error (Established V) α}
    (hm : ∀ e, m.Meets (fun _ e' => e.endpoint.Moves e'.endpoint)
      (fun _ e' => e.endpoint.Moves e'.endpoint) e)
    (h : s.Seated) (hestablished : s.phase = .established) :
    (onApplication m).Meets (fun _ s' => s.Steps s' ∧ s'.phase = .established)
      (fun _ => s.Steps) s := by
  rw [onApplication, Call.meets_zoom?]
  refine ⟨fun _ => steps_self h, ?_⟩
  intro e he
  obtain ⟨hendpoint, hchannel, hrelay⟩ := application_eq_some.mp he
  have hmoved : ∀ e' : Established V, e.endpoint.Moves e'.endpoint →
      s.Steps (s.withApplication e') := fun e' hmoves =>
    steps_moved h hendpoint hestablished rfl hmoves rfl rfl rfl
  exact (hm e).mono (fun _ e' hmoves => ⟨hmoved e' hmoves, hestablished⟩) fun _ e' => hmoved e'

omit [BodyVerifier V] in
theorem Steps.gated {gate : Option UInt64} {after : List ClaimantEffect} (h : s.Steps s') :
    s.Steps { s' with persistenceGate := gate, afterPersist := after } :=
  ⟨h.seated, h.pending, h.staysOver, h.ended⟩

theorem prepareFrame_moves (object : Object) (e : Established V) :
    (prepareFrame object).Meets (fun _ e' => e.endpoint.Moves e'.endpoint)
      (fun _ e' => e.endpoint.Moves e'.endpoint) e := by
  unfold prepareFrame
  rw [Call.meets_bind]
  refine (e.prepareOutbound_moves object).mono ?_ fun _ _ hmoves => hmoves
  intro frame e' hmoves
  simp only [Call.meets_bind, Call.meets_get, Call.meets_ofExcept, Call.meets_pure]
  exact ⟨fun _ _ => hmoves, fun _ _ => hmoves⟩

theorem sealCheckpoint_kept {channel : SecureChannel} {relay : RelayState}
    {wrappingKey : Octets 32} {generation now : UInt64} {expiry : Option UInt64}
    {nonce : Octets 12} (e : Endpoint V) :
    (Endpoint.sealCheckpoint channel relay wrappingKey generation expiry nonce now).Meets
      (fun _ => e.Kept) (fun _ => e.Kept) e := by
  rw [Call.meets_iff]
  constructor
  · intro checkpoint e' h
    obtain ⟨-, -, -, -, rfl⟩ := Endpoint.sealCheckpoint_eq_ok.mp h
    exact e.kept_stamped generation nonce
  · intro error e' h
    rw [Endpoint.sealCheckpoint_error h]
    exact e.kept_self

/-- Sealing the next checkpoint of the state keeps the endpoint. -/
theorem checkpointCurrent_meets {s₁ : ClaimantSession V} (h : s.Steps s₁)
    (hestablished : s₁.phase = .established) (wrappingKey : Octets 32) (nonce : Octets 12)
    (now : UInt64) (expiry : Option UInt64) (after : List ClaimantEffect) :
    (checkpointCurrent wrappingKey nonce now expiry after).Meets (fun _ => s.Steps)
      (fun _ => s.Steps) s₁ := by
  unfold checkpointCurrent
  rw [Call.meets_bind, Call.meets_get, Call.meets_ite]
  refine ⟨fun _ => h, fun _ => ?_⟩
  rw [Call.meets_bind]
  refine (onApplication_moves ?_ h.seated hestablished).mono ?_ fun _ _ hstep => h.trans hstep
  · intro e
    simp only [Call.meets_bind, Call.meets_get, Established.onEndpoint, Call.meets_zoom]
    refine (sealCheckpoint_kept e.endpoint).mono ?_ fun _ _ hkept => hkept.moves
    intro checkpoint endpoint hkept
    exact hkept.moves
  · rintro ⟨generation, checkpoint⟩ s₂ ⟨hstep, -⟩
    exact (h.trans hstep).gated

theorem prepareFinalApproval_meets (h : s.Seated) (object : Object) (wrappingKey : Octets 32)
    (nonce : Octets 12) (now : UInt64) :
    (prepareFinalApproval object wrappingKey nonce now).Meets (fun _ => s.Steps)
      (fun _ => s.Steps) s := by
  unfold prepareFinalApproval
  rw [Call.meets_bind, Call.meets_get, Call.meets_ite]
  refine ⟨fun _ => steps_self h, fun hready => ?_⟩
  simp only [not_or, ne_eq, not_not] at hready
  apply guarded_meets
  rw [Call.meets_bind]
  refine (onApplication_moves ?_ h hready.2.2.1).mono ?_ fun _ _ _ => trivial
  · intro e
    rw [Call.meets_bind]
    refine (prepareFrame_moves object e).mono ?_ fun _ _ hmoves => hmoves
    rintro ⟨sequence, frame⟩ e' hmoves
    simp only [Call.meets_bind, Call.meets_get, Established.onEndpoint, Call.meets_zoom]
    have hsealed : ∀ endpoint, e'.endpoint.Kept endpoint → e.endpoint.Moves endpoint := by
      intro endpoint hkept
      exact hmoves.trans hkept.moves
    exact (sealCheckpoint_kept e'.endpoint).mono (fun _ => hsealed) fun _ => hsealed
  · rintro ⟨sequence, frame, generation, checkpoint⟩ s₁ ⟨hstep, -⟩
    simp only [Call.meets_bind, Call.meets_modify, Call.meets_ofExcept, Call.meets_pure,
      implies_true, and_true]
    intro put _
    exact hstep.gated

theorem preparePayload_meets (h : s.Seated) (object : Object) (wrappingKey : Octets 32)
    (nonce : Octets 12) (now : UInt64) :
    (preparePayload object wrappingKey nonce now).Meets (fun _ => s.Steps) (fun _ => s.Steps) s := by
  unfold preparePayload
  simp only [Call.meets_bind, Call.meets_get, Call.meets_ite, Call.meets_throw]
  refine ⟨fun _ => steps_self h, fun hready => ⟨fun _ => steps_self h, fun _ => ?_⟩⟩
  simp only [not_or, ne_eq, not_not] at hready
  apply guarded_meets
  rw [Call.meets_bind]
  refine (onApplication_moves (prepareFrame_moves object) h hready.2.2.1).mono ?_
    fun _ _ _ => trivial
  rintro ⟨sequence, frame⟩ s₁ ⟨hstep, hphase⟩
  simp only [Call.meets_bind, Call.meets_ofExcept, implies_true, and_true]
  intro put _
  exact (checkpointCurrent_meets hstep hphase wrappingKey nonce now none [put]).mono
    (fun _ _ hnext => hnext) fun _ _ _ => trivial

theorem receiveDurable_meets (h : s.Seated) (input : ServerInput) (now : UInt64)
    (wrappingKey : Octets 32) (nonce : Octets 12) :
    (receiveDurable input now wrappingKey nonce).Meets (fun _ => s.Steps) (fun _ => s.Steps) s := by
  have hself := steps_self h
  unfold receiveDurable
  rw [Call.meets_bind, Call.meets_get, Call.meets_ite]
  refine ⟨fun _ => hself, fun hready => ?_⟩
  simp only [not_or, ne_eq, not_not] at hready
  obtain ⟨-, hestablished, -⟩ := hready
  simp only [Call.meets_bind, Call.meets_orThrow, Call.meets_ite, Call.meets_throw]
  refine ⟨fun endpointPhase _ => ⟨fun _ => hself, fun _ => ?_⟩, fun _ => hself⟩
  obtain e | ⟨message, hmessage⟩ := input
  · exact hself
  cases message with
  | acknowledged seq =>
    simp only [Call.meets_bind, Call.meets_orThrow, Call.meets_ite, Call.meets_pure]
    refine ⟨fun relay hrelay => ⟨fun _ => hself, fun happlied => ?_⟩, fun _ => hself⟩
    unfold localAck
    simp only [Call.meets_bind, Call.meets_get, Call.meets_orThrow, hrelay, Option.some.injEq,
      forall_eq', reduceCtorEq, false_implies, and_true]
    rw [if_neg happlied, if_pos hestablished, Call.meets_bind]
    refine onRelay_meets hself ?_ fun _ _ => steps_relay h hestablished
    intro _ _ relay' _ _
    exact checkpointCurrent_meets (steps_relay h hestablished) hestablished _ _ _ _ _
  | _ => exact hself

end ClaimantSession

/-- The calls that neither hand out nor take a receipt. -/
def ClaimantCall.plain : ClaimantCall → Bool
  | .receiveRecoveredReceipt _ => false
  | .authenticateRecoveredReceiptObject _ => false
  | .commitRecoveredReceipt _ => false
  | _ => true

namespace ClaimantSession

variable [BodyVerifier V] {s s' : ClaimantSession V}

theorem call_steps (h : s.Seated) (key : Octets 32) {c : ClaimantCall} (hplain : c.plain = true) :
    (call key c).Meets (fun _ => s.Steps) (fun _ => s.Steps) s := by
  have hself := steps_self h
  cases c with
  | start =>
    simp only [call, Call.meets_bind, Call.meets_get, Call.meets_ofExcept, Call.meets_pure]
    exact ⟨fun _ _ => hself, fun _ _ => hself⟩
  | receive input now => exact receive_meets h input now
  | authoriseAuthenticatedProfile offerVerifier =>
    simp only [call, authoriseAuthenticatedProfile, Call.meets_bind, Call.meets_get,
      Call.meets_ite, Call.meets_throw, Call.meets_set, Call.meets_pure, not_not, ne_eq]
    refine ⟨fun _ => hself, fun hawait => ?_⟩
    obtain hnone | ⟨e, he⟩ := Option.eq_none_or_eq_some s.endpoint
    · exact steps_early hnone (by rw [hawait]; decide) hnone rfl
    · obtain ⟨-, hrelay, hchannel, -⟩ := h e he
      exact steps_moved h he rfl he e.kept_self.moves hrelay hchannel rfl
  | prepareApplicationObject object =>
    simp only [call, prepareApplicationObject]
    rw [Call.meets_bind, Call.meets_get, Call.meets_ite]
    refine ⟨fun _ => hself, fun hready => ?_⟩
    simp only [not_or, ne_eq, not_not] at hready
    rw [Call.meets_bind]
    refine (onApplication_moves (prepareFrame_moves object) h hready.2.1).mono ?_
      fun _ _ hstep => hstep
    rintro ⟨sequence, frame⟩ s₁ ⟨hstep, -⟩
    simp only [Call.meets_bind, Call.meets_ofExcept, Call.meets_pure]
    exact ⟨fun _ _ => hstep, fun _ _ => hstep⟩
  | prepareFinalApproval object nonce now =>
    exact prepareFinalApproval_meets h object key nonce now
  | checkpointPersisted generation =>
    simp only [call, checkpointPersisted, Call.meets_bind, Call.meets_get, Call.meets_ite,
      Call.meets_throw, Call.meets_set, Call.meets_pure]
    exact ⟨fun _ => hself, fun _ => hself.gated⟩
  | resumeCachedFrame =>
    simp only [call, Call.meets_bind, Call.meets_get, Call.meets_ofExcept]
    exact ⟨fun _ _ => hself, fun _ _ => hself⟩
  | preparePayload object nonce now => exact preparePayload_meets h object key nonce now
  | receiveDurable input now nonce => exact receiveDurable_meets h input now key nonce
  | _ => cases hplain

end ClaimantSession

end CredentialV2
end CbclPairing
