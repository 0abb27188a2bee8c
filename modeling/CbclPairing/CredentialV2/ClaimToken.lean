import CbclPairing.CredentialV2.ReceiptRuns
import Mathlib.Data.List.Perm.Subperm

/-! The claim token of a claimant session: no call brings one back, and each one goes
out in a single claim. -/
namespace CbclPairing
namespace CredentialV2
open Codec Codec.Cbor Calls

def ClaimantEffect.claim? : ClaimantEffect → Option ClaimToken
  | .send (.claimV2 _ token) => some token
  | _ => none

/-- The tokens of the claims among some effects. -/
def claims (effects : List ClaimantEffect) : List ClaimToken :=
  effects.filterMap ClaimantEffect.claim?

@[simp] theorem claims_nil : claims [] = [] := rfl

@[simp] theorem claims_append (effects more : List ClaimantEffect) :
    claims (effects ++ more) = claims effects ++ claims more :=
  List.filterMap_append

variable [Primitives] {V : Type}

namespace ClaimantSession

/-- The tokens a session may still send: its own, and any in a held effect. -/
def sendable (s : ClaimantSession V) : List ClaimToken :=
  claims s.afterPersist ++ (s.presence.bind Presence.claimToken).toList

/-- What a successful call sends comes out of what the session held. -/
def Spends (s : ClaimantSession V) (effects : List ClaimantEffect) (s' : ClaimantSession V) :
    Prop :=
  (claims effects ++ s'.sendable).Subperm s.sendable

def Within (s s' : ClaimantSession V) : Prop := s'.sendable.Subperm s.sendable

variable {s s' : ClaimantSession V}

theorem within_of_eq (hpresence : s'.presence = s.presence)
    (hafter : s'.afterPersist = s.afterPersist) : s.Within s' := by
  unfold Within sendable
  rw [hpresence, hafter]

theorem within_self (s : ClaimantSession V) : s.Within s := List.Subperm.refl _

theorem within_terminate (s s' : ClaimantSession V) : s.Within s'.terminate :=
  List.nil_subperm

theorem Within.trans {s'' : ClaimantSession V} (h : s.Within s') (h' : s'.Within s'') :
    s.Within s'' :=
  List.Subperm.trans h' h

theorem Within.spends {effects : List ClaimantEffect} (h : s.Within s')
    (heffects : claims effects = []) : s.Spends effects s' := by
  unfold Spends
  rw [heffects]
  exact h

/-! ### Parts of a call -/

omit [Primitives] in
theorem claims_putFrame {sequence : UInt8} {frame : Frame} {effect : ClaimantEffect}
    (h : putFrame sequence frame = .ok effect) : claims [effect] = [] := by
  obtain ⟨_, -, -, rfl⟩ := putFrame_eq_ok.mp h
  rfl

omit [Primitives] in
theorem claims_ackFrame {peerSeq : UInt8} {effect : ClaimantEffect}
    (h : ackFrame peerSeq = .ok effect) : claims [effect] = [] := by
  obtain ⟨-, rfl⟩ := ackFrame_eq_ok.mp h
  rfl

omit [Primitives] in
theorem claims_cons {effect : ClaimantEffect} {effects : List ClaimantEffect}
    (h : claims [effect] = []) (h' : claims effects = []) : claims (effect :: effects) = [] := by
  rw [← List.singleton_append, claims_append, h, h', List.append_nil]

/-- The parts that no token goes through. -/
theorem onEndpoint_within {α : Type} (m : Call Error (Endpoint V) α) (s : ClaimantSession V) :
    (onEndpoint m).Meets (fun _ => s.Within) (fun _ => s.Within) s := by
  rw [onEndpoint, Call.meets_zoom?]
  refine ⟨fun _ => s.within_self, ?_⟩
  intro e _
  rw [Call.meets_iff]
  exact ⟨fun _ _ _ => within_of_eq rfl rfl, fun _ _ _ => within_of_eq rfl rfl⟩

theorem onApplication_within {α : Type} (m : Call Error (Established V) α)
    (s : ClaimantSession V) :
    (onApplication m).Meets (fun _ s' => s.Within s' ∧ s'.afterPersist = s.afterPersist)
      (fun _ => s.Within) s := by
  rw [onApplication, Call.meets_zoom?]
  refine ⟨fun _ => s.within_self, ?_⟩
  intro e _
  rw [Call.meets_iff]
  exact ⟨fun _ _ _ => ⟨within_of_eq rfl rfl, rfl⟩, fun _ _ _ => within_of_eq rfl rfl⟩

theorem prepareFinished_within (h : s.Within s') :
    prepareFinished.Meets (fun effect s'' => claims [effect] = [] ∧ s.Within s'')
      (fun _ _ => True) s' := by
  unfold prepareFinished
  simp only [Call.meets_bind, Call.meets_get, Call.meets_ite, Call.meets_throw, Call.meets_orThrow,
    Call.meets_ofExcept, Call.meets_modify, implies_true, and_true, true_and]
  rintro ⟨state, localShare⟩ _ _ peerShare _ peerMessage _ pending _
  refine onRelay_meets trivial ?_ fun _ _ => trivial
  intro sequence relay relay' _ _ put hput
  exact ⟨claims_putFrame hput, h⟩

theorem establish_spends {ack : Option ClaimantEffect} (h : s.Within s')
    (hack : claims ack.toList = []) :
    (establish ack).Meets s.Spends (fun _ _ => True) s' := by
  unfold establish
  simp only [Call.meets_bind, Call.meets_get, Call.meets_ite, Call.meets_throw, Call.meets_orThrow,
    Call.meets_ofExcept, Call.meets_set, Call.meets_pure, implies_true, and_true, true_and]
  intro _ _ _ _ channel _ relay _ _ v _
  have hless : s.Within { s' with presence := none } := by
    refine Within.trans h (List.Sublist.subperm ?_)
    simp [sendable]
  refine Within.spends (hless.trans (within_of_eq rfl rfl)) ?_
  rw [claims_append, hack]
  rfl

variable [BodyVerifier V]

omit [BodyVerifier V] in
theorem localAck_spends (h : s.Within s') (sequence : UInt8) :
    (localAck sequence).Meets s.Spends (fun _ _ => True) s' := by
  unfold localAck
  simp only [Call.meets_bind, Call.meets_get, Call.meets_orThrow, implies_true, and_true]
  intro relay _
  by_cases happlied : relay.acknowledgementAlreadyApplied sequence = true
  · rw [if_pos happlied]
    exact h.spends rfl
  rw [if_neg happlied]
  by_cases hestablished : s'.phase = .established
  · rw [if_pos hestablished, Call.meets_bind]
    refine onRelay_meets trivial ?_ fun _ _ => trivial
    intro _ _ _ _ _
    exact Within.spends h rfl
  rw [if_neg hestablished, Call.meets_bind]
  refine onRelay_meets trivial ?_ fun _ _ => trivial
  intro _ _ relay' _ _
  have h' : s.Within (s'.withRelay relay') := h
  cases s'.phase with
  | shareSent =>
    dsimp only
    split_ifs
    · rw [Call.meets_bind]
      refine (prepareFinished_within h').mono ?_ fun _ _ _ => trivial
      rintro put s'' ⟨hput, hnext⟩
      exact hnext.spends hput
    · exact h'.spends rfl
    · trivial
  | finishedSent =>
    dsimp only
    split_ifs
    · exact h'.spends rfl
    · exact establish_spends h' rfl
  | _ => trivial

theorem receiveObject_within (h : s.Within s') (object : Object) (now : UInt64) :
    (receiveObject object now).Meets (fun _ => s.Within) (fun _ _ => True) s' := by
  have hendpoint : ∀ m : Call Error (Endpoint V) Advance,
      (onEndpoint m).Meets (fun _ => s.Within) (fun _ _ => True) s' := fun m =>
    (onEndpoint_within m s').mono (fun _ _ h' => h.trans h') fun _ _ _ => trivial
  unfold receiveObject
  simp only [Call.meets_bind, Call.meets_get, Call.meets_orThrow, implies_true, and_true]
  intro endpoint _
  split_ifs
  · trivial
  · simp only [Call.meets_bind, Call.meets_orThrow, Call.meets_ofExcept, implies_true, and_true]
    intro verifier _ check _
    exact hendpoint _
  · exact hendpoint _

theorem peerApplicationFrame_spends (h : s.Within s') (peerSeq : UInt8) (frame : Frame)
    (now : UInt64) :
    (peerApplicationFrame peerSeq frame now).Meets s.Spends (fun _ _ => True) s' := by
  unfold peerApplicationFrame
  rw [Call.meets_bind]
  refine onRelay_meets trivial ?_ fun _ _ => trivial
  intro _ relay relay' _ _
  rw [Call.meets_bind]
  refine onChannel_meets trivial ?_ fun _ _ => trivial
  intro plaintext channel channel' _ _
  simp only [Call.meets_bind, Call.meets_ofExcept, implies_true, and_true]
  intro object _
  have h' : s.Within ((s'.withRelay relay').withChannel channel') := h
  refine (receiveObject_within h' object now).mono ?_ fun _ _ _ => trivial
  intro advance s'' hnext ack hack
  have hack := claims_ackFrame hack
  cases advance with
  | displayIntent display => exact Within.spends hnext (claims_cons hack rfl)
  | advanced => exact hnext.spends (claims_cons hack rfl)
  | exactRetransmission => exact hnext.spends hack

theorem peerFrame_spends (h : s.Within s') (peerSeq : UInt8) (body : Bytes) (now : UInt64) :
    (peerFrame peerSeq body now).Meets s.Spends (fun _ _ => True) s' := by
  unfold peerFrame
  simp only [Call.meets_bind, Call.meets_ofExcept, Call.meets_get, implies_true, and_true]
  intro frame _
  by_cases hestablished : s'.phase = .established
  · rw [if_pos hestablished]
    exact peerApplicationFrame_spends h peerSeq frame now
  rw [if_neg hestablished, Call.meets_bind]
  refine onRelay_meets trivial ?_ fun _ _ => trivial
  intro _ _ relay _ _
  simp only [Call.meets_bind, Call.meets_ofExcept, Call.meets_get, implies_true, and_true]
  intro ack hack
  have hack := claims_ackFrame hack
  have h' : s.Within (s'.withRelay relay) := h
  cases (s'.withRelay relay).phase with
  | shareSent =>
    dsimp only
    split_ifs
    · trivial
    simp only [Call.meets_bind, Call.meets_modify, Call.meets_orThrow, implies_true, and_true]
    intro relay' _
    have hshared : s.Within { s'.withRelay relay with peerShare := some frame } := h'
    split_ifs
    · exact hshared.spends hack
    · rw [Call.meets_bind]
      refine (prepareFinished_within hshared).mono ?_ fun _ _ _ => trivial
      rintro put s'' ⟨hput, hnext⟩
      exact hnext.spends (claims_cons hack hput)
  | finishedSent =>
    dsimp only
    split_ifs
    · trivial
    simp only [Call.meets_bind, Call.meets_modify, Call.meets_orThrow, implies_true, and_true]
    intro relay' _
    have hfinished : s.Within { s'.withRelay relay with peerFinished := some frame } := h'
    split_ifs
    · exact hfinished.spends hack
    · exact establish_spends hfinished hack
  | _ => trivial

omit [BodyVerifier V] in
/-- The claim takes the token out of the presence. -/
theorem welcomed_spends (s : ClaimantSession V) :
    welcomed.Meets s.Spends (fun _ _ => True) s := by
  unfold welcomed
  simp only [Call.meets_bind, Call.meets_zoom?, Call.meets_modify, Call.meets_get,
    Call.meets_ofExcept, Call.meets_pure, implies_true, and_true, true_and]
  intro presence hpresence
  unfold Presence.takeClaimToken
  rw [Call.meets_bind, Call.meets_get]
  cases htoken : presence.claimToken with
  | none => trivial
  | some token =>
    simp only [Call.meets_bind, Call.meets_set, Call.meets_pure]
    intro message hmessage
    obtain ⟨-, rfl⟩ := relayMessage_eq_ok.mp hmessage
    have hsent : (token :: claims s.afterPersist).Subperm (claims s.afterPersist ++ [token]) :=
      (List.perm_append_singleton token _).symm.subperm
    unfold Spends sendable
    simpa [hpresence, htoken, claims, ClaimantEffect.claim?] using hsent

theorem applyServer_spends (s : ClaimantSession V) (message : ServerMessage) (now : UInt64) :
    (applyServer message now).Meets s.Spends (fun _ _ => True) s := by
  have hself := s.within_self
  unfold applyServer
  rw [Call.meets_bind, Call.meets_get]
  cases message with
  | welcome =>
    dsimp only
    split_ifs
    · exact s.welcomed_spends
    · trivial
  | claimedV2 mailboxId membershipToken expiresAt =>
    dsimp only
    split_ifs
    · unfold claimed
      simp only [Call.meets_bind, Call.meets_get, Call.meets_ite, Call.meets_throw,
        Call.meets_modify, Call.meets_ofExcept, implies_true, and_true, true_and]
      rintro _ ⟨state, share⟩ _
      dsimp only
      cases RelayState.queueBootstrapFrame (RelayState.new membershipToken) with
      | error e relay => trivial
      | ok sequence relay =>
        simp only [Call.meets_bind, Call.meets_modify, Call.meets_ofExcept, Call.meets_pure,
          implies_true, and_true]
        intro put hput
        exact Within.spends hself (claims_putFrame hput)
    · trivial
  | frame peerSeq body => exact peerFrame_spends hself peerSeq body now
  | acknowledged seq => exact localAck_spends hself seq
  | pong => exact hself.spends rfl
  | closed reason => exact (s.within_terminate s).spends rfl
  | error code => exact (s.within_terminate s).spends rfl
  | _ => trivial

theorem receive_spends (s : ClaimantSession V) (input : ServerInput) (now : UInt64) :
    (receive input now).Meets s.Spends (fun _ => s.Within) s := by
  unfold receive
  rw [Call.meets_bind, Call.meets_get]
  split_ifs
  · exact s.within_self
  · exact s.within_self
  · exact s.within_terminate s
  · apply guarded_fails fun _ s' => s.within_terminate s'
    cases input with
    | error e => trivial
    | ok message => exact s.applyServer_spends message.val now

/-! ### Own objects and receipts -/

omit [BodyVerifier V] in
/-- Holding back a put behind a checkpoint. -/
theorem Within.gated {gate : Option UInt64} {after : List ClaimantEffect} {generation : UInt64}
    {checkpoint : Bytes} (h : s.Within s') (hheld : s'.afterPersist = [])
    (hafter : claims after = []) :
    s.Spends [.checkpoint generation checkpoint]
      { s' with persistenceGate := gate, afterPersist := after } := by
  unfold Within sendable at h
  rw [hheld] at h
  unfold Spends sendable
  rw [hafter]
  exact h

/-- Covering a frame with a checkpoint holds back its put, which is no claim. -/
theorem checkpointCurrent_spends (h : s.Within s') (wrappingKey : Octets 32) (nonce : Octets 12)
    (now : UInt64) (expiry : Option UInt64) {after : List ClaimantEffect}
    (hafter : claims after = []) :
    (checkpointCurrent wrappingKey nonce now expiry after).Meets s.Spends (fun _ => s.Within)
      s' := by
  unfold checkpointCurrent
  rw [Call.meets_bind, Call.meets_get, Call.meets_ite]
  refine ⟨fun _ => h, fun hready => ?_⟩
  simp only [not_or, ne_eq, not_not] at hready
  rw [Call.meets_bind]
  refine (onApplication_within _ s').mono ?_ fun _ _ h' => h.trans h'
  rintro ⟨generation, checkpoint⟩ s'' ⟨h', hsame⟩
  exact (h.trans h').gated (hsame.trans hready.2) hafter

theorem prepareFinalApproval_spends (s : ClaimantSession V) (object : Object)
    (wrappingKey : Octets 32) (nonce : Octets 12) (now : UInt64) :
    (prepareFinalApproval object wrappingKey nonce now).Meets s.Spends (fun _ => s.Within) s := by
  unfold prepareFinalApproval
  rw [Call.meets_bind, Call.meets_get, Call.meets_ite]
  refine ⟨fun _ => s.within_self, fun hready => ?_⟩
  simp only [not_or, ne_eq, not_not] at hready
  apply guarded_fails fun _ s' => s.within_terminate s'
  rw [Call.meets_bind]
  refine (onApplication_within _ s).mono ?_ fun _ _ _ => trivial
  rintro ⟨sequence, frame, generation, checkpoint⟩ s' ⟨h, hsame⟩
  simp only [Call.meets_bind, Call.meets_modify, Call.meets_ofExcept, Call.meets_pure,
    implies_true, and_true]
  intro put hput
  exact h.gated (hsame.trans hready.2.1) (claims_putFrame hput)

theorem preparePayload_spends (s : ClaimantSession V) (object : Object) (wrappingKey : Octets 32)
    (nonce : Octets 12) (now : UInt64) :
    (preparePayload object wrappingKey nonce now).Meets s.Spends (fun _ => s.Within) s := by
  unfold preparePayload
  simp only [Call.meets_bind, Call.meets_get, Call.meets_ite, Call.meets_throw]
  refine ⟨fun _ => s.within_self, fun _ => ⟨fun _ => s.within_self, fun _ => ?_⟩⟩
  apply guarded_fails fun _ s' => s.within_terminate s'
  rw [Call.meets_bind]
  refine (onApplication_within _ s).mono ?_ fun _ _ _ => trivial
  rintro ⟨sequence, frame⟩ s' ⟨h, -⟩
  simp only [Call.meets_bind, Call.meets_ofExcept, implies_true, and_true]
  intro put hput
  exact (checkpointCurrent_spends h wrappingKey nonce now none (claims_putFrame hput)).mono
    (fun _ _ h' => h') fun _ _ _ => trivial

theorem receiveDurable_spends (s : ClaimantSession V) (input : ServerInput) (now : UInt64)
    (wrappingKey : Octets 32) (nonce : Octets 12) :
    (receiveDurable input now wrappingKey nonce).Meets s.Spends (fun _ => s.Within) s := by
  have hself := s.within_self
  unfold receiveDurable
  rw [Call.meets_bind, Call.meets_get, Call.meets_ite]
  refine ⟨fun _ => hself, fun hready => ?_⟩
  simp only [not_or, ne_eq, not_not] at hready
  obtain ⟨-, hestablished, -⟩ := hready
  simp only [Call.meets_bind, Call.meets_orThrow, Call.meets_ite, Call.meets_throw]
  refine ⟨fun endpointPhase _ => ⟨fun _ => hself, fun _ => ?_⟩, fun _ => hself⟩
  obtain e | ⟨message, hmessage⟩ := input
  · exact hself
  cases message with
  | acknowledged seq =>
    simp only [Call.meets_bind, Call.meets_orThrow, Call.meets_ite, Call.meets_pure]
    refine ⟨fun relay hrelay => ⟨fun _ => hself.spends rfl, fun happlied => ?_⟩, fun _ => hself⟩
    unfold localAck
    simp only [Call.meets_bind, Call.meets_get, Call.meets_orThrow, hrelay, Option.some.injEq,
      forall_eq', reduceCtorEq, false_implies, and_true]
    rw [if_neg happlied, if_pos hestablished, Call.meets_bind]
    refine onRelay_meets hself ?_ fun _ _ => hself
    intro _ _ relay' _ _
    have hrelayed : s.Within (s.withRelay relay') := hself
    exact checkpointCurrent_spends hrelayed _ _ _ _ rfl
  | _ => exact hself

theorem receiveRecoveredReceipt_within (s : ClaimantSession V) (input : ServerInput) :
    (receiveRecoveredReceipt input).Meets (fun _ => s.Within) (fun _ => s.Within) s := by
  unfold receiveRecoveredReceipt
  rw [Call.meets_bind, Call.meets_get, Call.meets_ite]
  refine ⟨fun _ => s.within_self, fun _ => ?_⟩
  apply guarded_fails fun _ s' => s.within_terminate s'
  obtain e | ⟨message, hmessage⟩ := input
  · trivial
  cases message with
  | frame peerSeq body =>
    simp only [Call.meets_bind, Call.meets_ofExcept, implies_true, and_true]
    intro frame _
    refine onRelay_meets trivial ?_ fun _ _ => trivial
    intro _ relay relay' _ _
    refine onChannel_meets trivial ?_ fun _ _ => trivial
    intro plaintext channel channel' _ _ object _
    refine (onEndpoint_within _ _).mono ?_ fun _ _ _ => trivial
    intro authority s' h
    exact h
  | _ => trivial

/-- No call brings a token back, and what it sends it no longer holds. -/
theorem call_spends (s : ClaimantSession V) (key : Octets 32) (c : ClaimantCall) :
    (call key c).Meets s.Spends (fun _ => s.Within) s := by
  have hself := s.within_self
  cases c with
  | start =>
    simp only [call, Call.meets_bind, Call.meets_get, Call.meets_ofExcept, Call.meets_pure]
    refine ⟨fun message hstart => hself.spends ?_, fun _ _ => hself⟩
    unfold start at hstart
    split_ifs at hstart
    obtain ⟨-, rfl⟩ := relayMessage_eq_ok.mp hstart
    rfl
  | receive input now => exact s.receive_spends input now
  | authoriseAuthenticatedProfile offerVerifier =>
    simp only [call, authoriseAuthenticatedProfile, Call.meets_bind, Call.meets_get,
      Call.meets_ite, Call.meets_throw, Call.meets_set, Call.meets_pure]
    exact ⟨fun _ => hself, fun _ => Within.spends hself rfl⟩
  | prepareApplicationObject object =>
    simp only [call, prepareApplicationObject, Call.meets_bind, Call.meets_get, Call.meets_ite,
      Call.meets_throw]
    refine ⟨fun _ => hself, fun _ => ?_⟩
    refine (onApplication_within _ s).mono ?_ fun _ _ h => h
    rintro ⟨sequence, frame⟩ s' ⟨h, -⟩
    simp only [Call.meets_ofExcept, Call.meets_pure]
    exact ⟨fun put hput => h.spends (claims_putFrame hput), fun _ _ => h⟩
  | prepareFinalApproval object nonce now =>
    exact s.prepareFinalApproval_spends object key nonce now
  | checkpointPersisted generation =>
    simp only [call, checkpointPersisted, Call.meets_bind, Call.meets_get, Call.meets_ite,
      Call.meets_throw, Call.meets_set, Call.meets_pure]
    refine ⟨fun _ => hself, fun _ => ?_⟩
    exact List.Subperm.refl _
  | resumeCachedFrame =>
    simp only [call, Call.meets_bind, Call.meets_get, Call.meets_ofExcept]
    refine ⟨fun effects hresume => hself.spends ?_, fun _ _ => hself⟩
    unfold resumeCachedFrame at hresume
    split_ifs at hresume
    split at hresume
    · cases hresume
    split at hresume
    · obtain rfl := Except.ok.inj hresume
      rfl
    · obtain ⟨_, -, hresume⟩ := Calls.except_bind_eq_ok.mp hresume
      obtain ⟨put, hput, hresume⟩ := Calls.except_bind_eq_ok.mp hresume
      obtain rfl := Except.ok.inj hresume
      exact claims_putFrame hput
  | preparePayload object nonce now => exact s.preparePayload_spends object key nonce now
  | receiveDurable input now nonce => exact s.receiveDurable_spends input now key nonce
  | receiveRecoveredReceipt input =>
    simp only [call, Call.meets_bind, Call.meets_pure]
    exact (s.receiveRecoveredReceipt_within input).mono (fun _ _ h => h.spends rfl) fun _ _ h => h
  | authenticateRecoveredReceiptObject object =>
    simp only [call, authenticateRecoveredReceiptObject, Call.meets_bind, Call.meets_get,
      Call.meets_ite, Call.meets_throw, Call.meets_pure]
    refine ⟨fun _ => hself, fun _ => ?_⟩
    exact (onEndpoint_within _ s).mono (fun _ _ h => Within.spends h rfl) fun _ _ h => h
  | commitRecoveredReceipt receipt =>
    simp only [call, commitRecoveredReceipt, Call.meets_bind, Call.meets_get, Call.meets_ite,
      Call.meets_throw]
    refine ⟨fun _ => hself, fun _ => ?_⟩
    have hended : ∀ acknowledgement : List ClaimantEffect, claims acknowledgement = [] →
        ∀ s' : ClaimantSession V, s.Spends acknowledgement s'.terminate := fun _ hnone s' =>
      (s.within_terminate s').spends hnone
    cases receipt.peerSeq with
    | none =>
      exact (onEndpoint_within _ s).mono (fun _ s' _ => hended [] rfl s') fun _ _ h => h
    | some peerSeq =>
      simp only [Call.meets_bind, Call.meets_ofExcept, Call.meets_pure]
      refine ⟨fun ack hack => ?_, fun _ _ => hself⟩
      exact (onEndpoint_within _ s).mono (fun _ s' _ => hended [ack] (claims_ackFrame hack) s')
        fun _ _ h => h

/-! ### Runs -/

/-- The tokens of every claim a list of calls returned. -/
def allClaims (s : ClaimantSession V) (acts : List ClaimantAct) : List ClaimToken :=
  claims (Runs.released (fun act : ClaimantAct => call act.1 act.2) s acts)

theorem allClaims_subperm (s : ClaimantSession V) (acts : List ClaimantAct) :
    (s.allClaims acts).Subperm s.sendable := by
  unfold allClaims
  induction acts generalizing s with
  | nil => exact List.nil_subperm
  | cons act acts ih =>
    rw [Runs.released, claims_append]
    have hcall := s.call_spends act.1 act.2
    cases hresult : call act.1 act.2 s with
    | ok effects s' =>
      have hspends := hcall.ok hresult
      exact (List.subperm_append_left _ |>.mpr (ih s')).trans hspends
    | error e s' => exact (ih s').trans (hcall.error hresult)

omit [BodyVerifier V] in
theorem sendable_new (input : ClaimantInput) (v : V) :
    (ClaimantSession.new input v).sendable = input.presence.claimToken.toList := rfl

/-- A restored session holds no token. -/
theorem sendable_restored {checkpoint : Bytes} {wrappingKey : Octets 32} {carrier : Carrier}
    {generation now : UInt64} {v : V} {s : ClaimantSession V}
    (h : restore checkpoint wrappingKey carrier generation now v = .ok s) : s.sendable = [] := by
  unfold restore at h
  obtain ⟨e, -, h⟩ := Calls.except_bind_eq_ok.mp h
  obtain ⟨-, h⟩ := Calls.guard_eq_ok.mp h
  obtain rfl := Except.ok.inj h
  rfl

theorem Begins.sendable_length_le {s : ClaimantSession V} (h : s.Begins) :
    s.sendable.length ≤ 1 := by
  cases h with
  | new input v =>
    rw [sendable_new]
    cases input.presence.claimToken <;> simp
  | restored h =>
    rw [sendable_restored h]
    exact Nat.zero_le 1

end ClaimantSession
end CredentialV2
end CbclPairing
