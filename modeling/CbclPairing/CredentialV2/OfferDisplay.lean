import CbclPairing.CredentialV2.AllocatorRuns
import CbclPairing.CredentialV2.ReceiptWait
import CbclPairing.CredentialV2.Restored
import CbclPairing.Runs

/-! What a claimant is shown: the claims of the one authority that the consumer holds,
for the first offer of the run and for no other. -/
namespace CbclPairing
namespace CredentialV2
open Codec Calls

namespace Endpoint

variable [Primitives] {V : Type}

/-- Everything that stands between an offer and its display. -/
structure Displays (e : Endpoint V) (object : Object) (check : OfferCheck) (display : Display) :
    Prop where
  fresh : e.exactRetransmission object .allocator = false
  side : e.side = .claimant
  phase : preOffer e.phase = true
  kind : object.kind = .offer
  ceremony : check.authority.claims.carrierCeremonyId = e.carrier.carrierCeremonyId
  application : check.authority.claims.applicationId = e.carrier.applicationContext
  claims : ∃ claims, check.parseSignedOffer object.body = .ok claims ∧ claims.validate = .ok () ∧
    claims = check.authority.claims ∧
    object.intentDigest = intentDigestOf claims.offerCoreDigest ∧
    check.authority.intentDigest = intentDigestOf claims.offerCoreDigest ∧
    check.verify ⟨claims, intentDigestOf claims.offerCoreDigest⟩ check.authority = .ok ()
  display : display = ⟨check.authority.claims, check.authority.tofuState⟩

theorem recogniseIntent_eq_ok {object : Object} {check : OfferCheck} {display : Display} :
    recogniseIntent object check = .ok display ↔ object.kind = .offer ∧
      (∃ claims, check.parseSignedOffer object.body = .ok claims ∧ claims.validate = .ok () ∧
        claims = check.authority.claims ∧
        object.intentDigest = intentDigestOf claims.offerCoreDigest ∧
        check.authority.intentDigest = intentDigestOf claims.offerCoreDigest ∧
        check.verify ⟨claims, intentDigestOf claims.offerCoreDigest⟩ check.authority = .ok ()) ∧
      display = ⟨check.authority.claims, check.authority.tofuState⟩ := by
  unfold recogniseIntent
  simp only [guard_eq_ok, except_bind_eq_ok, mapError_eq_ok, not_or, ne_eq, not_not]
  constructor
  · rintro ⟨hkind, claims, hparse, ⟨⟩, hvalid, hdigest, ⟨hclaims, hauthority⟩, ⟨⟩, hverify, hok⟩
    exact ⟨hkind, ⟨claims, hparse, hvalid, hclaims, hdigest, hauthority.symm, hverify⟩,
      (Except.ok.inj hok).symm⟩
  · rintro ⟨hkind, ⟨claims, hparse, hvalid, hclaims, hdigest, hauthority, hverify⟩, rfl⟩
    exact ⟨hkind, claims, hparse, (), hvalid, hdigest, ⟨hclaims, hauthority.symm⟩, (), hverify, rfl⟩

/-- An offer is displayed exactly where it passes every check. -/
theorem receiveOffer_displays_iff {e e' : Endpoint V} {object : Object} {check : OfferCheck}
    {display : Display} :
    receiveOffer object check e = .ok (.displayIntent display) e' ↔
      e.Displays object check display ∧ e' = e.accept object .allocator .offered := by
  unfold receiveOffer
  rw [Call.run_bind (Call.run_get e)]
  constructor
  · intro h
    split_ifs at h with hagain hroles hauthority
    · simp at h
    · simp at h
    · simp at h
    simp only [not_or, ne_eq, not_not, Bool.not_eq_true', Bool.not_eq_false] at hroles hauthority
    cases hrecognised : recogniseIntent object check with
    | error error => simp [hrecognised] at h
    | ok shown =>
      simp only [hrecognised, Call.bind_eq_ok, Call.set_eq_ok, Call.pure_eq_ok,
        Advance.displayIntent.injEq] at h
      obtain ⟨_, _, rfl, rfl, rfl⟩ := h
      obtain ⟨hkind, hclaims, hdisplay⟩ := recogniseIntent_eq_ok.mp hrecognised
      exact ⟨⟨by simpa using hagain, hroles.1, hroles.2.1, hkind, hauthority.1, hauthority.2,
        hclaims, hdisplay⟩, rfl⟩
  · rintro ⟨h, rfl⟩
    have hrecognised := recogniseIntent_eq_ok.mpr ⟨h.kind, h.claims, h.display⟩
    rw [if_neg (by simp [h.fresh]), if_neg (by simp [h.side, h.phase, h.kind]),
      if_neg (by simp [h.ceremony, h.application]), hrecognised]
    rfl

/-- Without a display the offer was a repetition, or the endpoint has ended. -/
theorem receiveOffer_meets (object : Object) (check : OfferCheck) (e : Endpoint V) :
    (receiveOffer object check).Meets
      (fun advance e' => (∃ display, advance = .displayIntent display) ∨
        advance = .exactRetransmission ∧ e.exactRetransmission object .allocator = true ∧ e' = e)
      (fun _ e' => e' = { e with phase := .terminal }) e := by
  unfold receiveOffer
  rw [Call.meets_bind, Call.meets_get]
  simp only [Call.meets_ite, Call.meets_pure]
  refine ⟨fun hagain => .inr ⟨trivial, hagain, trivial⟩, fun _ => ⟨fun _ => rfl, fun _ => ⟨fun _ => rfl,
    fun _ => ?_⟩⟩⟩
  cases recogniseIntent object check with
  | error error => exact rfl
  | ok display => exact .inl ⟨display, rfl⟩

/-! ### Runs of an endpoint -/

/-- The calls on an endpoint. The channel and the relay projection that two of them take
belong to the caller. -/
inductive EndpointCall where
  | send (object : Object)
  | receive (object : Object)
  | receiveOffer (object : Object) (check : OfferCheck)
  | authenticateRecoveredReceipt (receipt : Object)
  | recoverReceipt (receipt : Object) (authority : RecoveredReceiptAuthority)
  | prepareOutbound (object : Object) (channel : SecureChannel) (relay : RelayState)
  | sealCheckpoint (channel : SecureChannel) (relay : RelayState) (wrappingKey : Octets 32)
      (generation : UInt64) (expiry : Option UInt64) (nonce : Octets 12) (now : UInt64)

/-- The call hands over an Offer of the peer. -/
def EndpointCall.ReceivesOffer : EndpointCall → Prop
  | .receive object | .receiveOffer object _ => object.kind = .offer
  | _ => False

def shown? : Advance → Option Display
  | .displayIntent display => some display
  | _ => none

variable [BodyVerifier V]

/-- `prepare_outbound` with a channel and a projection of the caller's. -/
def preparedWith (object : Object) (channel : SecureChannel) (relay : RelayState) :
    Call Error (Endpoint V) Unit := fun e =>
  match Established.prepareOutbound object ⟨e, channel, relay⟩ with
  | .ok _ s => .ok () s.endpoint
  | .error error s => .error error s.endpoint

/-- One call, with the advance it returned. -/
def step : EndpointCall → Call Error (Endpoint V) (List Advance)
  | .send object => (fun advance => [advance]) <$> send object
  | .receive object => (fun advance => [advance]) <$> receive object
  | .receiveOffer object check => (fun advance => [advance]) <$> receiveOffer object check
  | .authenticateRecoveredReceipt receipt =>
    (fun _ => []) <$> authenticateRecoveredReceipt receipt
  | .recoverReceipt receipt authority =>
    (fun advance => [advance]) <$> recoverReceipt receipt authority
  | .prepareOutbound object channel relay => (fun _ => []) <$> preparedWith object channel relay
  | .sealCheckpoint channel relay wrappingKey generation expiry nonce now =>
    (fun _ => []) <$> sealCheckpoint channel relay wrappingKey generation expiry nonce now

/-- What a call may do to an endpoint besides showing an offer. -/
structure Keeps (e e' : Endpoint V) : Prop where
  sound : e.Sound → e'.Sound
  side : e'.side = e.side
  phase : preOffer e'.phase = true → preOffer e.phase = true

omit [BodyVerifier V] in
theorem keeps_self (e : Endpoint V) : e.Keeps e := ⟨id, rfl, id⟩

omit [BodyVerifier V] in
theorem keeps_bodyVerifier (e : Endpoint V) (v : V) : e.Keeps { e with bodyVerifier := v } :=
  ⟨fun h => ⟨h.projection, h.intent, h.faithful⟩, rfl, id⟩

omit [BodyVerifier V] [Primitives] in
theorem nextPhase_not_preOffer {phase next : Phase} {kind : Kind}
    (h : nextPhase phase kind = some next) : preOffer next = false := by
  cases phase <;> cases kind <;> simp [nextPhase] at h <;> subst h <;> rfl

omit [BodyVerifier V] in
theorem Refused.keeps {e e' : Endpoint V} (h : e.Refused e') : e.Keeps e' := by
  refine ⟨fun hsound => hsound.refused h, ?_, ?_⟩
  · obtain ⟨v, rfl | rfl⟩ := h <;> rfl
  · obtain ⟨v, rfl | rfl⟩ := h
    · exact id
    · intro hpre
      cases hpre

omit [BodyVerifier V] in
theorem Accepts.keeps {e e' : Endpoint V} {object : Object} {sender : Side}
    (h : Accepts object sender e e') : e.Keeps e' := by
  refine ⟨fun hsound => hsound.accepts h, h.kept.2.1, fun hpre => ?_⟩
  cases h with
  | accountSelect _ _ _ hphase => rw [hphase]; rfl
  | sentOffer => cases hpre
  | receivedOffer => cases hpre
  | successor v next _ hsucceeds =>
    have hnext : preOffer next = false := nextPhase_not_preOffer hsucceeds.step
    exact absurd (hnext.symm.trans hpre) (by decide)

omit [BodyVerifier V] in
theorem Outcome.keeps {e : Endpoint V} {object : Object} {sender : Side}
    {r : EStateM.Result Error (Endpoint V) Advance} (h : Outcome e object sender r) :
    e.Keeps (Call.after r) := by
  cases h with
  | retransmission => exact e.keeps_self
  | accepted _ _ haccepts => exact haccepts.keeps
  | refused hrefused => exact hrefused.keeps

/-- The ordinary edge shows nothing. -/
theorem apply_shows_nothing (object : Object) (sender : Side) (e : Endpoint V) :
    (apply object sender).Meets (fun advance _ => shown? advance = none) (fun _ _ => True) e := by
  have hselect : (applyAccountSelect object sender).Meets (fun advance _ => shown? advance = none)
      (fun _ _ => True) e := by
    unfold applyAccountSelect
    rw [Call.meets_bind, Call.meets_get, Call.meets_ite]
    refine ⟨fun _ => trivial, fun _ => ?_⟩
    cases AccountSelect.recognise object e.carrier.carrierCeremonyId
      e.carrier.applicationContext with
    | error error => trivial
    | ok selection => exact rfl
  have hoffer : (applyOffer object sender).Meets (fun advance _ => shown? advance = none)
      (fun _ _ => True) e := by
    unfold applyOffer
    rw [Call.meets_bind, Call.meets_get, Call.meets_ite]
    exact ⟨fun _ => trivial, fun _ => rfl⟩
  have hsuccessor : (applySuccessor object sender).Meets
      (fun advance _ => shown? advance = none) (fun _ _ => True) e := by
    unfold applySuccessor
    rw [Call.meets_bind, Call.meets_get]
    repeat' split
    all_goals trivial
  unfold apply
  simp only [Call.meets_bind, Call.meets_get, Call.meets_ite, Call.meets_pure, Call.meets_throw]
  exact ⟨fun _ => rfl, fun _ => ⟨fun _ => trivial, fun _ => ⟨fun _ => trivial, fun _ =>
    ⟨fun _ => trivial, fun _ => ⟨fun _ => hselect, fun _ => ⟨fun _ => hoffer,
      fun _ => hsuccessor⟩⟩⟩⟩⟩⟩

theorem prepareOutbound_keeps (object : Object) (s : Established V) :
    (Established.prepareOutbound object).Meets (fun _ s' => s.endpoint.Keeps s'.endpoint)
      (fun _ s' => s.endpoint.Keeps s'.endpoint) s := by
  have hself := s.endpoint.keeps_self
  have hsend := (apply_outcome s.endpoint object s.endpoint.side).keeps
  unfold Established.prepareOutbound
  rw [Call.meets_bind, Call.meets_get, Call.meets_ite]
  refine ⟨fun _ => hself, fun _ => ?_⟩
  cases s.relay.cachedOutbound with
  | some cached =>
    dsimp only
    rw [Call.meets_ite]
    exact ⟨fun _ => hself, fun _ => hself⟩
  | none =>
    simp only [Call.meets_bind, Call.meets_ofExcept]
    refine ⟨fun _ _ => ?_, fun _ _ => hself⟩
    rw [Established.onEndpoint, Call.meets_zoom]
    refine Call.meets_iff.mpr ⟨fun advance e hok => ?_, fun error e herror => ?_⟩
    · rw [send_run] at hok
      rw [hok] at hsend
      rw [Call.meets_ite]
      refine ⟨fun _ => hsend, fun _ => ?_⟩
      rw [Call.meets_bind, Established.onChannel, Call.meets_zoom]
      refine Call.meets_iff.mpr ⟨fun frame channel _ => ?_, fun _ _ _ => hsend⟩
      rw [Call.meets_bind, Established.onRelay, Call.meets_zoom]
      exact Call.meets_iff.mpr ⟨fun _ _ _ => hsend, fun _ _ _ => hsend⟩
    · rw [send_run] at herror
      rw [herror] at hsend
      exact hsend

theorem preparedWith_keeps (object : Object) (channel : SecureChannel) (relay : RelayState)
    (e : Endpoint V) : e.Keeps (Call.after (preparedWith object channel relay e)) := by
  have hmeets := prepareOutbound_keeps object ⟨e, channel, relay⟩
  unfold preparedWith
  cases hrun : Established.prepareOutbound object ⟨e, channel, relay⟩ with
  | ok frame s => exact hmeets.ok hrun
  | error error s => exact hmeets.error hrun

theorem step_keeps (call : EndpointCall) (e : Endpoint V) :
    e.Keeps (Call.after (step call e)) := by
  cases call with
  | send object =>
    rw [step, Call.after_map]
    exact (apply_outcome e object e.side).keeps
  | receive object =>
    rw [step, Call.after_map]
    exact (apply_outcome e object e.side.opposite).keeps
  | receiveOffer object check =>
    rw [step, Call.after_map]
    exact (receiveOffer_outcome e object check).keeps
  | authenticateRecoveredReceipt receipt =>
    rw [step, Call.after_map]
    refine Call.Meets.after (P := e.Keeps) ?_
    refine (authenticateRecoveredReceipt_meets e receipt).mono ?_ ?_
    · rintro _ _ ⟨-, -, v, rfl⟩
      exact e.keeps_bodyVerifier v
    · rintro _ _ ⟨v, rfl⟩
      exact e.keeps_bodyVerifier v
  | recoverReceipt receipt authority =>
    rw [step, Call.after_map]
    cases hrun : recoverReceipt receipt authority e with
    | ok advance e' => exact (recoverReceipt_outcome hrun).2.2.keeps
    | error error e' =>
      rw [Call.after_error, recoverReceipt_error hrun]
      exact e.keeps_self
  | prepareOutbound object channel relay =>
    rw [step, Call.after_map]
    exact preparedWith_keeps object channel relay e
  | sealCheckpoint channel relay wrappingKey generation expiry nonce now =>
    rw [step, Call.after_map]
    cases hrun : sealCheckpoint channel relay wrappingKey generation expiry nonce now e with
    | ok checkpoint e' =>
      obtain ⟨-, -, -, -, rfl⟩ := sealCheckpoint_eq_ok.mp hrun
      exact ⟨fun h => ⟨h.projection, h.intent, h.faithful⟩, rfl, id⟩
    | error error e' =>
      rw [Call.after_error, sealCheckpoint_error hrun]
      exact e.keeps_self

/-- The displays a call returned. -/
def displays (r : EStateM.Result Error (Endpoint V) (List Advance)) : List Display :=
  (Runs.effects r).filterMap shown?

omit [BodyVerifier V] in
theorem map_displays {m : Call Error (Endpoint V) Advance} {e : Endpoint V}
    (h : m.Meets (fun advance _ => shown? advance = none) (fun _ _ => True) e) :
    displays (((fun advance => [advance]) <$> m) e) = [] := by
  unfold Call.Meets at h
  simp only [displays, Functor.map, EStateM.map]
  cases hm : m e with
  | ok advance e' =>
    rw [hm] at h
    simp [h]
  | error error e' => rfl

omit [BodyVerifier V] in
theorem unit_displays {α : Type} (m : Call Error (Endpoint V) α) (e : Endpoint V) :
    displays (((fun _ => []) <$> m) e) = [] := by
  simp only [displays, Functor.map, EStateM.map]
  cases m e <;> rfl

/-- Only a received offer is displayed, and it is displayed once. -/
theorem step_displays (call : EndpointCall) (e : Endpoint V) :
    displays (step call e) = [] ∨ ∃ object check display,
      call = .receiveOffer object check ∧ e.Displays object check display ∧
        displays (step call e) = [display] := by
  cases call with
  | send object => exact .inl (map_displays (apply_shows_nothing object e.side e))
  | receive object => exact .inl (map_displays (apply_shows_nothing object e.side.opposite e))
  | receiveOffer object check =>
    have hmeets := receiveOffer_meets object check e
    cases hrun : receiveOffer object check e with
    | ok advance e' =>
      have hstep : step (.receiveOffer object check) e = .ok [advance] e' := by
        simp [step, Functor.map, EStateM.map, hrun]
      rw [hstep]
      obtain ⟨display, rfl⟩ | ⟨rfl, -, -⟩ := hmeets.ok hrun
      · exact .inr ⟨object, check, display, rfl, (receiveOffer_displays_iff.mp hrun).1, rfl⟩
      · exact .inl rfl
    | error error e' =>
      have hstep : step (.receiveOffer object check) e = .error error e' := by
        simp [step, Functor.map, EStateM.map, hrun]
      rw [hstep]
      exact .inl rfl
  | authenticateRecoveredReceipt receipt => exact .inl (unit_displays _ e)
  | recoverReceipt receipt authority =>
    refine .inl (map_displays ?_)
    refine Call.meets_iff.mpr ⟨fun advance e' hok => ?_, fun _ _ _ => trivial⟩
    rw [(recoverReceipt_outcome hok).1]
    rfl
  | prepareOutbound object channel relay => exact .inl (unit_displays _ e)
  | sealCheckpoint channel relay wrappingKey generation expiry nonce now =>
    exact .inl (unit_displays _ e)

omit [BodyVerifier V] in
/-- Before the offer nothing of the allocator's was accepted. -/
theorem Sound.fresh {e : Endpoint V} (h : e.Sound) (hphase : preOffer e.phase = true)
    (object : Object) : e.exactRetransmission object .allocator = false := by
  have hopen : e.phase ≠ .terminal := by
    intro hterminal
    rw [hterminal] at hphase
    cases hphase
  have hprojection := h.projection hopen
  cases hlast : e.last with
  | none => simp [exactRetransmission, hlast]
  | some last =>
    have hsender : last.sender = .claimant := by
      cases hp : e.phase <;> simp [hp, preOffer] at hphase <;>
        cases hintent : e.intentDigest <;>
        simp [hp, hlast, hintent, consistentProjection] at hprojection
      exact hprojection.1.1
    simp [exactRetransmission, hlast, hsender]

/-- An offer leaves no claimant where it could still be offered something. -/
theorem receivesOffer_ends {e : Endpoint V} (hsound : e.Sound) (hside : e.side = .claimant)
    {call : EndpointCall} (hoffer : call.ReceivesOffer) :
    preOffer (Call.after (step call e)).phase = false := by
  by_contra hafter
  rw [Bool.not_eq_false] at hafter
  have hphase := (step_keeps call e).phase hafter
  cases call with
  | receive object =>
    have hfresh := hsound.fresh hphase object
    have hopen : e.phase ≠ .terminal := by
      intro hterminal
      rw [hterminal] at hphase
      cases hphase
    have hrun : receive object e = .error .phase { e with phase := .terminal } := by
      have hkind : object.kind = .offer := hoffer
      have hvalid : validSender object.kind .allocator = true := by
        rw [hkind]
        rfl
      have hopposite : e.side.opposite = .allocator := by
        rw [hside]
        rfl
      rw [receive_run, hopposite]
      unfold apply applyOffer
      rw [Call.run_bind (Call.run_get e), if_neg (by simpa using hfresh), if_neg hopen,
        if_neg (by simp [hkind]), if_neg (by simpa using hvalid), if_neg (by simp [hkind]),
        if_pos hkind, Call.run_bind (Call.run_get e), if_pos (by simp [hside])]
      rfl
    rw [step, Call.after_map, hrun] at hafter
    cases hafter
  | receiveOffer object check =>
    have hfresh := hsound.fresh hphase object
    rw [step, Call.after_map] at hafter
    have hmeets := receiveOffer_meets object check e
    cases hrun : receiveOffer object check e with
    | ok advance e' =>
      rw [hrun] at hafter
      obtain ⟨display, rfl⟩ | ⟨-, hagain, -⟩ := hmeets.ok hrun
      · rw [(receiveOffer_displays_iff.mp hrun).2] at hafter
        cases hafter
      · cases hfresh.symm.trans hagain
    | error error e' =>
      rw [hrun, hmeets.error hrun] at hafter
      cases hafter
  | send | authenticateRecoveredReceipt | recoverReceipt | prepareOutbound | sealCheckpoint =>
    cases hoffer

/-- A claimant endpoint as a session gets it: new, or opened from a checkpoint. -/
def ClaimantOpened (e : Endpoint V) : Prop :=
  (∃ carrier bodyVerifier, e = new .claimant carrier bodyVerifier) ∨
    ∃ input wrappingKey carrier generation now bodyVerifier s,
      restoreCheckpoint input wrappingKey .claimant carrier generation now bodyVerifier = .ok s ∧
        e = s.endpoint

theorem ClaimantOpened.sound {e : Endpoint V} (h : e.ClaimantOpened) :
    e.Sound ∧ e.side = .claimant := by
  obtain ⟨carrier, bodyVerifier, rfl⟩ | ⟨input, wrappingKey, carrier, generation, now, bodyVerifier,
    s, hrestore, rfl⟩ := h
  · exact ⟨sound_new _ _ _, rfl⟩
  · have hreopened := restoreCheckpoint_eq_ok hrestore
    exact ⟨hreopened.coherent.sound, hreopened.side⟩

/-- A claimant endpoint after a run: while an offer may still come, none came and none was
shown, and never was more than one. -/
structure Shown (e₀ : Endpoint V) (calls : List EndpointCall) (e : Endpoint V) : Prop where
  sound : e.Sound
  side : e.side = .claimant
  unoffered : preOffer e.phase = true → ∀ call ∈ calls, ¬ call.ReceivesOffer
  unshown : preOffer e.phase = true → (Runs.released step e₀ calls).filterMap shown? = []
  once : ((Runs.released step e₀ calls).filterMap shown?).length ≤ 1

theorem Shown.concat {e₀ : Endpoint V} {calls : List EndpointCall}
    (h : Shown e₀ calls (Runs.after step e₀ calls)) (call : EndpointCall) :
    Shown e₀ (calls ++ [call]) (Call.after (step call (Runs.after step e₀ calls))) := by
  have hkeeps := step_keeps call (Runs.after step e₀ calls)
  have hreleased : (Runs.released step e₀ (calls ++ [call])).filterMap shown? =
      (Runs.released step e₀ calls).filterMap shown? ++
        displays (step call (Runs.after step e₀ calls)) := by
    rw [Runs.released_concat, List.filterMap_append]
    rfl
  have hdisplays := step_displays call (Runs.after step e₀ calls)
  constructor
  case sound => exact hkeeps.sound h.sound
  case side => exact hkeeps.side.trans h.side
  case unoffered =>
    intro hphase call' hcall'
    rw [List.mem_append, List.mem_singleton] at hcall'
    obtain hcall' | rfl := hcall'
    · exact h.unoffered (hkeeps.phase hphase) call' hcall'
    · intro hoffer
      exact absurd ((receivesOffer_ends h.sound h.side hoffer).symm.trans hphase) (by decide)
  case unshown =>
    intro hphase
    rw [hreleased, h.unshown (hkeeps.phase hphase), List.nil_append]
    obtain hnone | ⟨object, check, display, rfl, hdisplay, -⟩ := hdisplays
    · exact hnone
    · have hoffer : (EndpointCall.receiveOffer object check).ReceivesOffer := hdisplay.kind
      exact absurd ((receivesOffer_ends h.sound h.side hoffer).symm.trans hphase) (by decide)
  case once =>
    rw [hreleased]
    obtain hnone | ⟨object, check, display, rfl, hdisplay, hone⟩ := hdisplays
    · rw [hnone, List.append_nil]
      exact h.once
    · rw [hone, h.unshown hdisplay.phase]
      exact le_rfl

theorem run_shown {e₀ : Endpoint V} (h : e₀.ClaimantOpened) (calls : List EndpointCall) :
    Shown e₀ calls (Runs.after step e₀ calls) :=
  Runs.invariant step ⟨h.sound.1, h.sound.2, fun _ _ hcall => (by cases hcall), fun _ => rfl,
    Nat.zero_le 1⟩ (fun _ call ih => ih.concat call) calls

/-- What is displayed along a run, and what every other answer leaves. -/
structure DisplayLaw (e₀ : Endpoint V) (calls : List EndpointCall) : Prop where
  displayed : ∀ before object check rest display e',
    calls = before ++ .receiveOffer object check :: rest →
    receiveOffer object check (Runs.after step e₀ before) = .ok (.displayIntent display) e' →
      (Runs.after step e₀ before).Displays object check display ∧
        ∀ call ∈ before, ¬ call.ReceivesOffer
  repeated : ∀ before object check rest advance e',
    calls = before ++ .receiveOffer object check :: rest →
    receiveOffer object check (Runs.after step e₀ before) = .ok advance e' →
      shown? advance = none → advance = .exactRetransmission ∧ e' = Runs.after step e₀ before
  failed : ∀ before object check rest error e',
    calls = before ++ .receiveOffer object check :: rest →
    receiveOffer object check (Runs.after step e₀ before) = .error error e' → e'.phase = .terminal
  only_offers : ∀ before call rest, calls = before ++ call :: rest →
    displays (step call (Runs.after step e₀ before)) ≠ [] →
      ∃ object check, call = .receiveOffer object check
  once : ((Runs.released step e₀ calls).filterMap shown?).length ≤ 1

/-- Only authenticated claims are displayed, for the first offer, and once in a run. -/
theorem only_authenticated_claims_displayed {e₀ : Endpoint V} (h : e₀.ClaimantOpened)
    (calls : List EndpointCall) : DisplayLaw e₀ calls := by
  constructor
  case displayed =>
    rintro before object check rest display e' - hrun
    have hdisplays := (receiveOffer_displays_iff.mp hrun).1
    exact ⟨hdisplays, (run_shown h before).unoffered hdisplays.phase⟩
  case repeated =>
    rintro before object check rest advance e' - hrun hnone
    obtain ⟨display, rfl⟩ | ⟨hagain, -, he⟩ := (receiveOffer_meets object check _).ok hrun
    · cases hnone
    · exact ⟨hagain, he⟩
  case failed =>
    rintro before object check rest error e' - hrun
    rw [(receiveOffer_meets object check _).error hrun]
  case only_offers =>
    rintro before call rest - hsome
    obtain hnone | ⟨object, check, -, hcall, -⟩ :=
      step_displays call (Runs.after step e₀ before)
    · exact absurd hnone hsome
    · exact ⟨object, check, hcall⟩
  case once => exact (run_shown h calls).once

end Endpoint
end CredentialV2
end CbclPairing

/-! ### One offer, twice -/

namespace CbclPairing
namespace CredentialV2
open Codec Calls

attribute [local instance] Primitives.transparent

def IntentClaims.sample : IntentClaims where
  applicationId := ascii "https://issuer.example/card"
  httpsOrigin := ascii "https://issuer.example"
  relayOrigin := ascii "https://relay.example"
  carrierCeremonyId := fill 32 [2]
  accountProvenance := ⟨fill 32 [1], fill 32 [2]⟩
  permissions := [ascii "sign"]
  deviceBinding := ⟨ascii "did:key:z6Mk" ++ List.replicate 44 65, fill 32 [3]⟩
  transition := .noTransition
  offerCoreDigest := fill 32 [9]

def Object.sampleOffer : Object :=
  ⟨.offer, intentDigestOf (fill 32 [9]), [1], by decide, by decide⟩

def OfferCheck.sample : OfferCheck where
  authority := ⟨.sample, .newPair⟩
  parseSignedOffer _ := .ok .sample
  verify _ _ := .ok ()

theorem Endpoint.only_authenticated_claims_displayed_sample :
    Displays (new .claimant .sample ()) .sampleOffer .sample ⟨.sample, .newPair⟩ ∧
      DisplayLaw (new .claimant .sample ())
        [.receiveOffer .sampleOffer .sample, .receiveOffer .sampleOffer .sample] := by
  constructor
  · exact ⟨rfl, rfl, rfl, rfl, by decide +kernel, by decide +kernel,
      ⟨.sample, rfl, by decide +kernel, rfl, rfl, rfl, rfl⟩, rfl⟩
  · exact only_authenticated_claims_displayed (.inl ⟨.sample, (), rfl⟩) _

end CredentialV2
end CbclPairing
