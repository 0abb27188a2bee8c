import CbclPairing.CredentialV2.ClaimantSeats

/-! The claimant that waits for its Receipt: what each public call does to the waiting
endpoint, and what the session can do with a receipt it handed out. -/
namespace CbclPairing
namespace CredentialV2
open Codec Codec.Cbor Calls

variable [Primitives] {V : Type}

omit [Primitives] in
/-- A failed acknowledgement changes nothing, and a good one empties the cache. -/
theorem RelayState.acknowledgeApplicationFrame_meets (relay : RelayState) (sequence : UInt8) :
    (acknowledgeApplicationFrame sequence).Meets (fun _ relay' => relay'.cachedOutbound = none)
      (fun _ relay' => relay' = relay) relay := by
  unfold acknowledgeApplicationFrame
  simp only [Call.meets_bind, Call.meets_get, Call.meets_ofExcept, Call.meets_ite,
    Call.meets_throw, Call.meets_set, implies_true, and_self]

/-! ### The endpoint -/

namespace Endpoint

/-- What a receipt that the endpoint waits for says of it. -/
structure Awaits (e : Endpoint V) (receipt : Object) (logical : LogicalBody) : Prop where
  side : e.side = .claimant
  phase : e.phase = .payloadSent
  kind : receipt.kind = .receipt
  intent : e.intentDigest = some receipt.intentDigest
  body : recogniseLogicalBody receipt = .ok logical
  ceremony : logical.carrierCeremonyId = e.carrier.carrierCeremonyId
  predecessor : ∃ payload, e.last = some payload ∧ logical.predecessorDigest = payload.contentHash

theorem Awaits.kept {e e' : Endpoint V} {receipt : Object} {logical : LogicalBody}
    (h : e.Awaits receipt logical) (hkept : e.Kept e') : e'.Awaits receipt logical := by
  refine ⟨hkept.side.trans h.side, hkept.phase.trans h.phase, h.kind,
    hkept.intentDigest.trans h.intent, h.body, ?_, ?_⟩
  · rw [hkept.carrier]
    exact h.ceremony
  · rw [hkept.last]
    exact h.predecessor

/-- The authority of a receipt at an endpoint. -/
def Authorises (e : Endpoint V) (receipt : Object) (authority : RecoveredReceiptAuthority) : Prop :=
  ∃ intentDigest payload finalStatusDigest, e.intentDigest = some intentDigest ∧
    e.last = some payload ∧ receiptFinalStatusDigest receipt.body = .ok finalStatusDigest ∧
    authority =
      { applicationContext := e.carrier.applicationContext
        carrierCeremonyId := e.carrier.carrierCeremonyId
        intentDigest
        payloadContentHash := payload.contentHash
        finalStatusDigest
        receiptBodyDigest := sha256 receipt.body }

theorem Authorises.kept {e e' : Endpoint V} {receipt : Object}
    {authority : RecoveredReceiptAuthority} (h : e.Authorises receipt authority)
    (hkept : e.Kept e') : e'.Authorises receipt authority := by
  obtain ⟨intentDigest, payload, finalStatusDigest, hintent, hlast, hstatus, rfl⟩ := h
  refine ⟨intentDigest, payload, finalStatusDigest, hkept.intentDigest.trans hintent,
    hkept.last.trans hlast, hstatus, ?_⟩
  rw [hkept.carrier]

omit [Primitives] in
/-- A recognised receipt names its final status. -/
theorem finalStatus_of_recognised {receipt : Object} {logical : LogicalBody}
    (hkind : receipt.kind = .receipt) (h : recogniseLogicalBody receipt = .ok logical) :
    ∃ digest, receiptFinalStatusDigest receipt.body = .ok digest := by
  unfold recogniseLogicalBody at h
  rw [hkind] at h
  simp only [reduceCtorEq, if_false, if_true, Calls.except_bind_eq_ok] at h
  obtain ⟨value, hvalue, entries, hentries, _, -, _, -, _, hvalid, -⟩ := h
  have hdigest := hvalid
  unfold validateReceipt at hdigest
  rw [Calls.guard_eq_ok] at hdigest
  simp only [Calls.except_bind_eq_ok] at hdigest
  obtain ⟨-, _, -, digest, hdigest, -⟩ := hdigest
  refine ⟨digest, ?_⟩
  unfold receiptFinalStatusDigest
  rw [hvalue, Calls.ok_bind, hentries, Calls.ok_bind, hvalid, Calls.ok_bind, hdigest]

variable [BodyVerifier V]

/-- A receipt that the endpoint's verifier accepts now. -/
def Accepted (e : Endpoint V) (receipt : Object) : Prop :=
  ∃ logical, e.Awaits receipt logical ∧ (BodyVerifier.verify e.bodyVerifier logical).1 = .ok ()

/-- Authentication moves nothing but the verifier, and hands out the authority of a
receipt the verifier accepted. -/
theorem authenticateRecoveredReceipt_meets (e : Endpoint V) (receipt : Object) :
    (authenticateRecoveredReceipt receipt).Meets
      (fun authority e' => e.Accepted receipt ∧ e.Authorises receipt authority ∧
        ∃ v, e' = { e with bodyVerifier := v })
      (fun _ e' => ∃ v, e' = { e with bodyVerifier := v }) e := by
  have hself : ∃ v, e = { e with bodyVerifier := v } := ⟨e.bodyVerifier, rfl⟩
  unfold authenticateRecoveredReceipt
  simp only [Call.meets_bind, Call.meets_get, Call.meets_ite, Call.meets_throw, Call.meets_orThrow,
    Call.meets_ofExcept, Call.meets_set, Call.meets_pure, not_or, ne_eq, not_not]
  refine ⟨fun _ => hself, ?_⟩
  rintro ⟨hside, hphase, hkind⟩
  refine ⟨fun intentDigest hintent => ⟨fun _ => hself, fun hdigest => ⟨?_, fun _ _ => hself⟩⟩,
    fun _ => hself⟩
  intro logical hlogical
  refine ⟨fun _ => hself, fun hceremony => ⟨fun payload hlast => ⟨fun _ => hself, ?_⟩,
    fun _ => hself⟩⟩
  intro hpredecessor
  have hawaits : e.Awaits receipt logical := ⟨hside, hphase, hkind, hdigest ▸ hintent, hlogical,
    hceremony, payload, hlast, hpredecessor⟩
  rcases hverify : BodyVerifier.verify e.bodyVerifier logical with ⟨verdict, v⟩
  refine ⟨?_, fun _ _ => ⟨v, rfl⟩⟩
  rintro ⟨⟩ rfl
  refine ⟨?_, fun _ _ => ⟨v, rfl⟩⟩
  intro finalStatusDigest hstatus
  refine ⟨⟨logical, hawaits, ?_⟩, ⟨intentDigest, payload, finalStatusDigest, hintent, hlast,
    hstatus, rfl⟩, v, rfl⟩
  rw [hverify]

/-- An accepted receipt is authenticated. -/
theorem authenticateRecoveredReceipt_ok {e : Endpoint V} {receipt : Object}
    (h : e.Accepted receipt) : ∃ authority e', authenticateRecoveredReceipt receipt e =
      .ok authority e' := by
  obtain ⟨logical, hawaits, hverify⟩ := h
  obtain ⟨payload, hlast, hpredecessor⟩ := hawaits.predecessor
  obtain ⟨digest, hstatus⟩ := finalStatus_of_recognised hawaits.kind hawaits.body
  unfold authenticateRecoveredReceipt
  rw [Call.run_bind (Call.run_get e), if_neg (by
    simp [hawaits.side, hawaits.phase, hawaits.kind]), hawaits.intent,
    Call.run_bind (Call.run_orThrow_some _ _ e), if_neg (not_not.mpr rfl), hawaits.body,
    Call.run_bind (Call.run_ofExcept_ok _ e), if_neg (not_not.mpr hawaits.ceremony), hlast,
    Call.run_bind (Call.run_orThrow_some _ _ e), if_neg (not_not.mpr hpredecessor)]
  rcases hv : BodyVerifier.verify e.bodyVerifier logical with ⟨verdict, v⟩
  obtain rfl : verdict = .ok () := by rw [hv] at hverify; exact hverify
  dsimp only
  rw [hstatus]
  exact ⟨_, _, rfl⟩

omit [BodyVerifier V] in
/-- The authority of an awaited receipt carries the terminal edge. -/
theorem recoverReceipt_ok {e : Endpoint V} {receipt : Object} {logical : LogicalBody}
    {authority : RecoveredReceiptAuthority} (hawaits : e.Awaits receipt logical)
    (hauthority : e.Authorises receipt authority) :
    recoverReceipt receipt authority e = .ok .advanced (e.accept receipt .allocator .terminal) := by
  obtain ⟨intentDigest, payload, digest, hintent, hlast, hstatus, rfl⟩ := hauthority
  obtain ⟨payload', hlast', hpredecessor⟩ := hawaits.predecessor
  obtain rfl := Option.some.inj (hlast.symm.trans hlast')
  obtain rfl := Option.some.inj (hintent.symm.trans hawaits.intent)
  unfold recoverReceipt
  rw [Call.run_bind (Call.run_get e), if_neg (by
    simp [hawaits.side, hawaits.phase, hawaits.kind]), hawaits.body,
    Call.run_bind (Call.run_ofExcept_ok _ e), hlast, Call.run_bind (Call.run_orThrow_some _ _ e),
    hintent, Call.run_bind (Call.run_orThrow_some _ _ e), hstatus,
    Call.run_bind (Call.run_ofExcept_ok _ e), if_pos (by
      simp [hawaits.ceremony, hpredecessor])]
  rfl

end Endpoint

/-! ### The wait -/

/-- An endpoint that a wrong object ended. -/
def Endpoint.shut (e : Endpoint V) : Endpoint V := { e with phase := .terminal }

/-- Nothing the claimant itself sends is accepted while it waits. -/
theorem Endpoint.apply_waiting [BodyVerifier V] {e : Endpoint V} (hwaits : e.phase = .payloadSent)
    (object : Object) :
    (apply object .claimant).Meets (fun advance e' => advance = .exactRetransmission ∧ e' = e)
      (fun _ e' => e' = e ∨ e' = e.shut) e := by
  have hfail : ∀ error, (fail error : Call Error (Endpoint V) Advance).Meets
      (fun advance e' => advance = .exactRetransmission ∧ e' = e)
      (fun _ e' => e' = e ∨ e' = e.shut) e := fun _ => .inr rfl
  unfold apply
  rw [Call.meets_bind, Call.meets_get]
  split_ifs with hagain hterminal hrefusal hsender hselect hoffer
  · exact ⟨rfl, rfl⟩
  · exact .inl rfl
  · exact .inl rfl
  · exact hfail _
  · unfold applyAccountSelect
    rw [Call.meets_bind, Call.meets_get, if_pos (.inl (by rw [hwaits]; decide))]
    exact hfail _
  · unfold applyOffer
    rw [Call.meets_bind, Call.meets_get, if_pos (.inl (by decide))]
    exact hfail _
  · have hnone : nextPhase e.phase object.kind = none := by
      rw [hwaits]
      revert hsender
      cases object.kind <;> simp [validSender, nextPhase]
    unfold applySuccessor
    rw [Call.meets_bind, Call.meets_get]
    split
    · exact hfail _
    · rw [Call.meets_ite, hnone]
      exact ⟨fun _ => hfail _, fun _ => hfail _⟩

theorem Established.prepareOutbound_waiting [BodyVerifier V] {est : Established V}
    (hside : est.endpoint.side = .claimant) (hwaits : est.endpoint.phase = .payloadSent)
    (object : Object) :
    (prepareOutbound object).Meets (fun _ est' => est' = est)
      (fun _ est' => est' = est ∨ est' = { est with endpoint := est.endpoint.shut }) est := by
  unfold prepareOutbound
  rw [Call.meets_bind, Call.meets_get, Call.meets_ite]
  refine ⟨fun _ => .inl rfl, fun _ => ?_⟩
  cases est.relay.cachedOutbound with
  | some cached =>
    dsimp only
    rw [Call.meets_ite]
    exact ⟨fun _ => rfl, fun _ => .inl rfl⟩
  | none =>
    simp only [Call.meets_bind, Call.meets_ofExcept, onEndpoint, Call.meets_zoom]
    refine ⟨fun _ _ => ?_, fun _ _ => .inl trivial⟩
    have hsend : (Endpoint.send object).Meets
        (fun advance e' => advance = .exactRetransmission ∧ e' = est.endpoint)
        (fun _ e' => e' = est.endpoint ∨ e' = est.endpoint.shut) est.endpoint := by
      have happly := Endpoint.apply_waiting hwaits object
      unfold Call.Meets at happly ⊢
      rwa [Endpoint.send_run, hside]
    refine hsend.mono ?_ ?_
    · rintro advance endpoint ⟨rfl, rfl⟩
      rw [if_pos (by decide)]
      exact .inl rfl
    · rintro error endpoint (rfl | rfl)
      · exact .inl rfl
      · exact .inr rfl

namespace ClaimantSession

variable [BodyVerifier V] {s s' : ClaimantSession V} {e : Endpoint V}

/-- A session whose endpoint waits for the Receipt. -/
structure Waits (s : ClaimantSession V) (e : Endpoint V) : Prop where
  seated : s.Seated
  endpoint : s.endpoint = some e
  phase : e.phase = .payloadSent

omit [BodyVerifier V] in
theorem Waits.established (h : s.Waits e) : s.phase = .established := by
  obtain ⟨-, -, -, hphase | ⟨-, hbegin⟩⟩ := h.seated e h.endpoint
  · exact hphase
  · rw [h.phase] at hbegin
    cases hbegin

omit [BodyVerifier V] in
theorem Waits.endpointPhase (h : s.Waits e) : s.endpointPhase = some .payloadSent := by
  unfold ClaimantSession.endpointPhase
  rw [h.endpoint, Option.map_some, h.phase]

omit [BodyVerifier V] in
theorem Waits.durable (h : s.Waits e) : s.hasDurableEndpointPhase = true := by
  unfold hasDurableEndpointPhase
  rw [h.endpoint, Option.any_some, h.phase]
  rfl

/-- The session still waits: the endpoint is given, and what a commit asks of the rest
of the session has not become worse. -/
structure Rests (s : ClaimantSession V) (e : Endpoint V) (s' : ClaimantSession V) : Prop where
  endpoint : s'.endpoint = some e
  cache : s.hasCachedOutboundFrame = false → s'.hasCachedOutboundFrame = false
  pending : s'.pendingRecoveredReceipt = s.pendingRecoveredReceipt

omit [BodyVerifier V] in
theorem Waits.rests (h : s.Waits e) : s.Rests e s := ⟨h.endpoint, id, rfl⟩

/-- The two calls of a claimant's own objects end the wait: one shuts the endpoint, the
other ends the session. -/
inductive Forfeits (s : ClaimantSession V) (e : Endpoint V) :
    ClaimantCall → ClaimantSession V → Prop
  | object (object : Object) {s' : ClaimantSession V} : s'.endpoint = some e.shut →
      Forfeits s e (.prepareApplicationObject object) s'
  | finalApproval (object : Object) (nonce : Octets 12) (now : UInt64) {s' : ClaimantSession V} :
      s'.Over → Forfeits s e (.prepareFinalApproval object nonce now) s'

omit [BodyVerifier V] in
theorem onApplication_meets {α : Type} {m : Call Error (Established V) α}
    {Q : α → ClaimantSession V → Prop} {E : Error → ClaimantSession V → Prop}
    {est : Established V} (h : s.application = some est) : (onApplication m).Meets Q E s ↔
      m.Meets (fun a est' => Q a (s.withApplication est'))
        (fun e est' => E e (s.withApplication est')) est := by
  rw [onApplication, Call.meets_zoom?, h]
  simp only [reduceCtorEq, false_implies, true_and, Option.some.injEq, forall_eq']
  rfl

theorem prepareFrame_waiting {est : Established V} (hside : est.endpoint.side = .claimant)
    (hwaits : est.endpoint.phase = .payloadSent) (object : Object) :
    (prepareFrame object).Meets (fun _ est' => est' = est)
      (fun _ est' => est' = est ∨ est' = { est with endpoint := est.endpoint.shut }) est := by
  unfold prepareFrame
  rw [Call.meets_bind]
  refine (Established.prepareOutbound_waiting hside hwaits object).mono ?_ fun _ _ h => h
  rintro frame est' rfl
  simp only [Call.meets_bind, Call.meets_get, Call.meets_ofExcept, Call.meets_pure]
  exact ⟨fun _ _ => trivial, fun _ _ => .inl trivial⟩

omit [BodyVerifier V] in
/-- The application state of a waiting session. -/
theorem Waits.application (h : s.Waits e) :
    ∃ channel relay, s.application = some ⟨e, channel, relay⟩ := by
  obtain ⟨-, hrelay, hchannel, -⟩ := h.seated e h.endpoint
  obtain ⟨relay, hrelay⟩ := Option.isSome_iff_exists.mp hrelay
  obtain ⟨channel, hchannel⟩ := Option.isSome_iff_exists.mp hchannel
  exact ⟨channel, relay, application_eq_some.mpr ⟨h.endpoint, hchannel, hrelay⟩⟩

omit [BodyVerifier V] in
theorem Waits.side (h : s.Waits e) : e.side = .claimant := (h.seated e h.endpoint).1

theorem Waits.prepareApplicationObject (h : s.Waits e) (object : Object) :
    (ClaimantSession.prepareApplicationObject object).Meets (fun _ => s.Rests e)
      (fun _ s' => s.Rests e s' ∨ Forfeits s e (.prepareApplicationObject object) s') s := by
  have hself := h.rests
  obtain ⟨channel, relay, happlication⟩ := h.application
  have hsame := withApplication_self happlication
  unfold ClaimantSession.prepareApplicationObject
  rw [Call.meets_bind, Call.meets_get, Call.meets_ite]
  refine ⟨fun _ => .inl hself, fun _ => ?_⟩
  rw [Call.meets_bind, onApplication_meets happlication]
  refine (prepareFrame_waiting h.side h.phase object).mono ?_ ?_
  · rintro ⟨sequence, frame⟩ est rfl
    rw [hsame]
    simp only [Call.meets_bind, Call.meets_ofExcept, Call.meets_pure]
    exact ⟨fun _ _ => hself, fun _ _ => .inl hself⟩
  · rintro error est (rfl | rfl)
    · rw [hsame]
      exact .inl hself
    · exact .inr (.object object rfl)

theorem Waits.prepareFinalApproval (h : s.Waits e) (key : Octets 32) (object : Object)
    (nonce : Octets 12) (now : UInt64) :
    (ClaimantSession.prepareFinalApproval object key nonce now).Meets (fun _ _ => False)
      (fun _ s' => s.Rests e s' ∨ Forfeits s e (.prepareFinalApproval object nonce now) s') s := by
  obtain ⟨channel, relay, happlication⟩ := h.application
  unfold ClaimantSession.prepareFinalApproval
  rw [Call.meets_bind, Call.meets_get, Call.meets_ite]
  refine ⟨fun _ => .inl h.rests, fun _ => ?_⟩
  apply guarded_fails
  · intro error s'
    exact .inr (.finalApproval object nonce now ⟨rfl, rfl⟩)
  rw [Call.meets_bind, onApplication_meets happlication, Call.meets_bind]
  refine (prepareFrame_waiting h.side h.phase object).mono ?_ fun _ _ _ => trivial
  rintro ⟨sequence, frame⟩ est rfl
  simp only [Call.meets_bind, Call.meets_get, Established.onEndpoint, Call.meets_zoom]
  rw [Call.meets_iff]
  refine ⟨?_, fun _ _ _ => trivial⟩
  intro checkpoint e' hseal
  obtain ⟨-, hvalid, -⟩ := Endpoint.sealCheckpoint_eq_ok.mp hseal
  obtain ⟨-, hexpiry⟩ | ⟨hfinal, -⟩ := (validateCheckpointPhase_ok hvalid).2.2 h.side
  · cases hexpiry
  · rw [h.phase] at hfinal
    cases hfinal

omit [BodyVerifier V] in
/-- Another relay projection with no more in its cache. -/
theorem Rests.withRelay (h : s.Rests e s') {relay relay' : RelayState}
    (hrelay : s'.relay = some relay)
    (hcache : relay.cachedOutbound = none → relay'.cachedOutbound = none) :
    s.Rests e (s'.withRelay relay') := by
  refine ⟨h.endpoint, ?_, h.pending⟩
  intro hnone
  have hbefore := h.cache hnone
  unfold hasCachedOutboundFrame at hbefore ⊢
  rw [hrelay, Option.any_some, Option.isSome_eq_false_iff, Option.isNone_iff_eq_none] at hbefore
  show relay'.cachedOutbound.isSome = false
  rw [hcache hbefore]
  rfl

omit [BodyVerifier V] in
theorem Waits.withRelay (h : s.Waits e) {relay relay' : RelayState} (hrelay : s.relay = some relay)
    (hcache : relay.cachedOutbound = none → relay'.cachedOutbound = none) :
    (s.withRelay relay').Waits e ∧ s.Rests e (s.withRelay relay') :=
  ⟨⟨(steps_relay h.seated h.established).seated, h.endpoint, h.phase⟩,
    h.rests.withRelay hrelay hcache⟩

omit [BodyVerifier V] in
theorem Rests.trans {e' : Endpoint V} {s'' : ClaimantSession V} (h : s.Rests e s')
    (h' : s'.Rests e' s'') : s.Rests e' s'' :=
  ⟨h'.endpoint, fun hnone => h'.cache (h.cache hnone), h'.pending.trans h.pending⟩

/-- Sealing a checkpoint stamps the waiting endpoint. -/
theorem Waits.checkpointCurrent (h : s.Waits e) (key : Octets 32) (nonce : Octets 12) (now : UInt64)
    (expiry : Option UInt64) (after : List ClaimantEffect) :
    (ClaimantSession.checkpointCurrent key nonce now expiry after).Meets
      (fun _ s' => ∃ generation nonce, s.Rests (e.stamped generation nonce) s')
      (fun _ => s.Rests e) s := by
  obtain ⟨channel, relay, happlication⟩ := h.application
  have hsame := withApplication_self happlication
  obtain ⟨-, -, hrelay⟩ := application_eq_some.mp happlication
  unfold ClaimantSession.checkpointCurrent
  rw [Call.meets_bind, Call.meets_get, Call.meets_ite]
  refine ⟨fun _ => h.rests, fun _ => ?_⟩
  rw [Call.meets_bind, onApplication_meets happlication]
  simp only [Call.meets_bind, Call.meets_get, Established.onEndpoint, Call.meets_zoom]
  rw [Call.meets_iff]
  constructor
  · intro checkpoint e' hseal
    obtain ⟨-, -, -, -, rfl⟩ := Endpoint.sealCheckpoint_eq_ok.mp hseal
    refine ⟨_, nonce, rfl, ?_, rfl⟩
    unfold hasCachedOutboundFrame
    rw [hrelay]
    exact id
  · intro error e' hseal
    obtain rfl := Endpoint.sealCheckpoint_error hseal
    rw [hsame]
    exact h.rests

theorem Waits.receiveDurable (h : s.Waits e) (input : ServerInput) (now : UInt64) (key : Octets 32)
    (nonce : Octets 12) :
    (ClaimantSession.receiveDurable input now key nonce).Meets
      (fun _ s' => s.Rests e s' ∨ ∃ generation nonce, s.Rests (e.stamped generation nonce) s')
      (fun _ => s.Rests e) s := by
  have hself := h.rests
  have hestablished := h.established
  unfold ClaimantSession.receiveDurable
  rw [Call.meets_bind, Call.meets_get, Call.meets_ite]
  refine ⟨fun _ => hself, fun _ => ?_⟩
  simp only [Call.meets_bind, Call.meets_orThrow, Call.meets_ite, Call.meets_throw]
  refine ⟨fun endpointPhase _ => ⟨fun _ => hself, fun _ => ?_⟩, fun _ => hself⟩
  obtain error | ⟨message, hmessage⟩ := input
  · exact hself
  cases message with
  | acknowledged seq =>
    simp only [Call.meets_bind, Call.meets_orThrow, Call.meets_ite, Call.meets_pure]
    refine ⟨fun relay hrelay => ⟨fun _ => .inl hself, fun happlied => ?_⟩, fun _ => hself⟩
    unfold localAck
    simp only [Call.meets_bind, Call.meets_get, Call.meets_orThrow, hrelay, Option.some.injEq,
      forall_eq', reduceCtorEq, false_implies, and_true]
    rw [if_neg happlied, if_pos hestablished, Call.meets_bind, onRelay, Call.meets_zoom?]
    refine ⟨fun _ => hself, ?_⟩
    intro relay₁ hrelay₁
    obtain rfl := Option.some.inj (hrelay.symm.trans hrelay₁)
    refine (RelayState.acknowledgeApplicationFrame_meets relay seq).mono ?_ ?_
    · intro _ relay' hcache
      obtain ⟨hwaits, hrests⟩ := h.withRelay hrelay fun _ => hcache
      refine (hwaits.checkpointCurrent key nonce now _ []).mono ?_ ?_
      · rintro effects s' ⟨generation, nonce, hstamped⟩
        exact .inr ⟨generation, nonce, hrests.trans hstamped⟩
      · intro error s' hkept
        exact hrests.trans hkept
    · rintro error relay' rfl
      exact (h.withRelay hrelay id).2
  | _ => exact hself

/-- A call that neither hands out nor takes a receipt leaves the waiting endpoint as it
is, stamps it with the checkpoint of an acknowledgement, or forfeits the wait. -/
theorem Waits.call_plain (h : s.Waits e) (key : Octets 32) {c : ClaimantCall}
    (hplain : c.plain = true) :
    (call key c).Meets
      (fun _ s' => s.Rests e s' ∨ (∃ input now nonce, c = .receiveDurable input now nonce) ∧
        ∃ generation nonce, s.Rests (e.stamped generation nonce) s')
      (fun _ s' => s.Rests e s' ∨ Forfeits s e c s') s := by
  have hself := h.rests
  have hestablished := h.established
  cases c with
  | start =>
    simp only [call, Call.meets_bind, Call.meets_get, Call.meets_ofExcept, Call.meets_pure]
    exact ⟨fun _ _ => .inl hself, fun _ _ => .inl hself⟩
  | receive input now =>
    simp only [call, receive]
    rw [Call.meets_bind, Call.meets_get, if_pos (.inr h.durable)]
    exact .inl hself
  | authoriseAuthenticatedProfile offerVerifier =>
    simp only [call, authoriseAuthenticatedProfile]
    rw [Call.meets_bind, Call.meets_bind, Call.meets_get, if_pos (by rw [hestablished]; decide)]
    exact .inl hself
  | prepareApplicationObject object =>
    exact (h.prepareApplicationObject object).mono (fun _ _ => .inl) fun _ _ hnext => hnext
  | prepareFinalApproval object nonce now =>
    exact (h.prepareFinalApproval key object nonce now).mono (fun _ _ => False.elim)
      fun _ _ hnext => hnext
  | checkpointPersisted generation =>
    simp only [call, checkpointPersisted, Call.meets_bind, Call.meets_get, Call.meets_ite,
      Call.meets_throw, Call.meets_set, Call.meets_pure]
    exact ⟨fun _ => .inl hself, fun _ => .inl ⟨h.endpoint, id, rfl⟩⟩
  | resumeCachedFrame =>
    simp only [call, Call.meets_bind, Call.meets_get, Call.meets_ofExcept]
    exact ⟨fun _ _ => .inl hself, fun _ _ => .inl hself⟩
  | preparePayload object nonce now =>
    simp only [call, preparePayload]
    rw [Call.meets_bind, Call.meets_get, if_pos (.inr (.inr (.inr (.inl (by
      rw [h.endpointPhase]
      decide)))))]
    exact .inl hself
  | receiveDurable input now nonce =>
    refine (h.receiveDurable input now key nonce).mono ?_ fun _ _ => .inl
    intro effects s' hnext
    exact hnext.imp_right fun hstamped => ⟨⟨input, now, nonce, rfl⟩, hstamped⟩
  | _ => cases hplain

/-- Either way the endpoint is kept, or the wait is forfeited. -/
theorem Waits.rests_or_forfeits (h : s.Waits e) (key : Octets 32) {c : ClaimantCall}
    (hplain : c.plain = true) :
    (call key c).Meets (fun _ s' => (∃ e', e.Kept e' ∧ s.Rests e' s') ∨ Forfeits s e c s')
      (fun _ s' => (∃ e', e.Kept e' ∧ s.Rests e' s') ∨ Forfeits s e c s') s := by
  refine (h.call_plain key hplain).mono ?_ ?_
  · rintro effects s' (hrests | ⟨-, generation, nonce, hrests⟩)
    · exact .inl ⟨e, e.kept_self, hrests⟩
    · exact .inl ⟨_, e.kept_stamped generation nonce, hrests⟩
  · rintro error s' (hrests | hforfeits)
    · exact .inl ⟨e, e.kept_self, hrests⟩
    · exact .inr hforfeits

/-! ### Receipts -/

/-- A receipt handed out by an endpoint: its object was accepted by the verifier there,
and its authority is that object's. -/
structure Issued (e : Endpoint V) (receipt : RecoveredReceipt) : Prop where
  accepted : ∃ e₀ : Endpoint V, e₀.Kept e ∧ e₀.Accepted receipt.object
  authority : e.Authorises receipt.object receipt.authority
  sequence : ∀ peerSeq ∈ receipt.peerSeq, ClientMessage.recognised (.ack peerSeq) = true

theorem Issued.kept {e' : Endpoint V} {receipt : RecoveredReceipt} (h : Issued e receipt)
    (hkept : e.Kept e') : Issued e' receipt := by
  obtain ⟨e₀, hbefore, haccepted⟩ := h.accepted
  exact ⟨⟨e₀, hbefore.trans hkept, haccepted⟩, h.authority.kept hkept, h.sequence⟩

theorem Issued.awaits {receipt : RecoveredReceipt} (h : Issued e receipt) :
    ∃ logical, e.Awaits receipt.object logical := by
  obtain ⟨e₀, hkept, logical, hawaits, -⟩ := h.accepted
  exact ⟨logical, hawaits.kept hkept⟩

/-- The session after a receipt was handed out. -/
structure HandsOut (s : ClaimantSession V) (e : Endpoint V) (receipt : RecoveredReceipt)
    (s' : ClaimantSession V) : Prop where
  endpoint : ∃ v, s'.endpoint = some { e with bodyVerifier := v }
  seated : s'.Seated
  cache : s.hasCachedOutboundFrame = false → s'.hasCachedOutboundFrame = false
  fresh : s.pendingRecoveredReceipt = false
  pending : s'.pendingRecoveredReceipt = true
  ungated : s.persistenceGate = none ∧ s'.persistenceGate = none
  issued : Issued e receipt
  uncached : receipt.peerSeq.isSome = true → s'.hasCachedOutboundFrame = false
  object : e.Accepted receipt.object

omit [BodyVerifier V] in
theorem Waits.seated_verifier (h : s.Waits e) (v : V) :
    Seated { s with endpoint := some { e with bodyVerifier := v } } := by
  obtain ⟨hside, hrelay, hchannel, -⟩ := h.seated e h.endpoint
  rintro _ ⟨⟩
  exact ⟨hside, hrelay, hchannel, .inl h.established⟩

theorem Waits.authenticateRecoveredReceiptObject (h : s.Waits e) (object : Object) :
    (ClaimantSession.authenticateRecoveredReceiptObject object).Meets
      (fun receipt s' => receipt.object = object ∧ s.HandsOut e receipt s')
      (fun _ s' => ∃ v, s.Rests { e with bodyVerifier := v } s' ∧ s'.Seated) s := by
  have hself : ∃ v, s.Rests { e with bodyVerifier := v } s ∧ s.Seated :=
    ⟨e.bodyVerifier, h.rests, h.seated⟩
  unfold ClaimantSession.authenticateRecoveredReceiptObject
  rw [Call.meets_bind, Call.meets_get, Call.meets_ite]
  refine ⟨fun _ => hself, fun hready => ?_⟩
  simp only [not_or, ne_eq, not_not, Bool.not_eq_true, Option.isSome_eq_false_iff,
    Option.isNone_iff_eq_none] at hready
  rw [Call.meets_bind, onEndpoint, Call.meets_zoom?, h.endpoint]
  refine ⟨fun hnone => (by cases hnone), ?_⟩
  rintro _ ⟨⟩
  refine (e.authenticateRecoveredReceipt_meets object).mono ?_ ?_
  · rintro authority e' ⟨haccepted, hauthority, v, rfl⟩
    exact ⟨rfl, ⟨⟨v, rfl⟩, h.seated_verifier v, id, hready.2.2.2, rfl, ⟨hready.1, hready.1⟩,
      ⟨⟨e, e.kept_self, haccepted⟩, hauthority, (by intros; contradiction)⟩,
      (by intros; contradiction), haccepted⟩⟩
  · rintro error e' ⟨v, rfl⟩
    exact ⟨v, ⟨rfl, id, rfl⟩, h.seated_verifier v⟩

theorem Waits.receiveRecoveredReceipt (h : s.Waits e) (input : ServerInput) :
    (ClaimantSession.receiveRecoveredReceipt input).Meets
      (fun receipt s' => s.HandsOut e receipt s') (fun _ s' => s' = s ∨ s'.Over) s := by
  unfold ClaimantSession.receiveRecoveredReceipt
  rw [Call.meets_bind, Call.meets_get, Call.meets_ite]
  refine ⟨fun _ => .inl rfl, fun hready => guarded_fails (fun _ _ => .inr ⟨rfl, rfl⟩) ?_⟩
  simp only [not_or, ne_eq, not_not, Bool.not_eq_true, Option.isSome_eq_false_iff,
    Option.isNone_iff_eq_none] at hready
  obtain ⟨hgate, -, -, hfresh, hcache⟩ := hready
  obtain error | ⟨message, hmessage⟩ := input
  · trivial
  cases message with
  | frame peerSeq body =>
    simp only [Call.meets_bind, Call.meets_ofExcept, implies_true, and_true]
    intro frame _
    refine onRelay_meets trivial ?_ fun _ _ => trivial
    intro _ relay relay' hrelay haccept
    obtain ⟨-, hnext⟩ := RelayState.acceptPeerSequence_eq_ok.mp haccept
    refine onChannel_meets trivial ?_ fun _ _ => trivial
    intro plaintext _ channel _ _ object _
    rw [onEndpoint, Call.meets_zoom?]
    refine ⟨fun _ => trivial, ?_⟩
    intro e₁ he₁
    obtain rfl := Option.some.inj (h.endpoint.symm.trans he₁)
    refine (e.authenticateRecoveredReceipt_meets object).mono ?_ fun _ _ _ => trivial
    rintro authority e' ⟨haccepted, hauthority, v, rfl⟩
    have huncached : relay'.cachedOutbound.isSome = false := by
      unfold hasCachedOutboundFrame at hcache
      rw [hrelay, Option.any_some] at hcache
      obtain ⟨next, -, rfl⟩ := hnext
      exact hcache
    refine ⟨⟨v, rfl⟩, ?_, fun _ => huncached, hfresh, rfl, ⟨hgate, hgate⟩,
      ⟨⟨e, e.kept_self, haccepted⟩, hauthority, ?_⟩, fun _ => huncached, haccepted⟩
    · rintro _ ⟨⟩
      exact ⟨h.side, rfl, rfl, .inl h.established⟩
    · rintro _ ⟨⟩
      unfold ServerMessage.recognised at hmessage
      rw [Bool.and_eq_true] at hmessage
      exact hmessage.1
  | _ => trivial

omit [BodyVerifier V] in
theorem onEndpoint_recoverReceipt (s : ClaimantSession V) (receipt : RecoveredReceipt) :
    (onEndpoint (Endpoint.recoverReceipt receipt.object receipt.authority)).Meets
      (fun _ _ => True) (fun _ s' => s' = s) s := by
  rw [onEndpoint, Call.meets_zoom?]
  refine ⟨fun _ => rfl, ?_⟩
  intro e he
  rw [Call.meets_iff]
  refine ⟨fun _ _ _ => trivial, ?_⟩
  intro error e' h
  rw [Endpoint.recoverReceipt_error h, ← he]

omit [BodyVerifier V] in
/-- A commit is refused without a change or ends the session. -/
theorem commitRecoveredReceipt_meets (s : ClaimantSession V) (receipt : RecoveredReceipt) :
    (commitRecoveredReceipt receipt).Meets (fun _ s' => s'.Over) (fun _ s' => s' = s) s := by
  have hrecover := onEndpoint_recoverReceipt s receipt
  unfold commitRecoveredReceipt
  rw [Call.meets_bind, Call.meets_get, Call.meets_ite]
  refine ⟨fun _ => rfl, fun _ => ?_⟩
  cases receipt.peerSeq with
  | some peerSeq =>
    simp only [Call.meets_bind, Call.meets_ofExcept, Call.meets_pure, Call.meets_modify]
    exact ⟨fun _ _ => hrecover.mono (fun _ _ _ => ⟨rfl, rfl⟩) fun _ _ hsame => hsame,
      fun _ _ => trivial⟩
  | none =>
    simp only [Call.meets_bind, Call.meets_pure, Call.meets_modify]
    exact hrecover.mono (fun _ _ _ => ⟨rfl, rfl⟩) fun _ _ hsame => hsame

omit [BodyVerifier V] in
/-- An issued receipt is committed once the gate is closed. -/
theorem Waits.commitRecoveredReceipt (h : s.Waits e) {receipt : RecoveredReceipt}
    {logical : LogicalBody} (hawaits : e.Awaits receipt.object logical)
    (hauthority : e.Authorises receipt.object receipt.authority)
    (hsequence : ∀ peerSeq ∈ receipt.peerSeq, ClientMessage.recognised (.ack peerSeq) = true)
    (hpending : s.pendingRecoveredReceipt = true) (hgate : s.persistenceGate = none)
    (hcache : receipt.peerSeq.isSome = true → s.hasCachedOutboundFrame = false) :
    ∃ s', ClaimantSession.commitRecoveredReceipt receipt s =
      .ok (receipt.peerSeq.toList.map fun peerSeq => .send (.ack peerSeq)) s' ∧ s'.Over := by
  have hready : ¬ (!s.pendingRecoveredReceipt ∨ s.persistenceGate.isSome ∨
      s.phase ≠ .established ∨ s.endpointPhase ≠ some .payloadSent ∨
      (receipt.peerSeq.isSome ∧ s.hasCachedOutboundFrame)) := by
    rw [hpending, hgate, h.established, h.endpointPhase]
    cases hseq : receipt.peerSeq with
    | none => simp
    | some peerSeq =>
      rw [hseq] at hcache
      simp [hcache rfl]
  have hrecover : onEndpoint (Endpoint.recoverReceipt receipt.object receipt.authority) s =
      .ok .advanced { s with
        endpoint := some (e.accept receipt.object .allocator .terminal) } :=
    Call.run_zoom? h.endpoint (Endpoint.recoverReceipt_ok hawaits hauthority)
  unfold ClaimantSession.commitRecoveredReceipt
  rw [Call.run_bind (Call.run_get s), if_neg hready]
  cases hseq : receipt.peerSeq with
  | none =>
    dsimp only
    rw [Call.run_bind (Call.run_pure [] s), Call.run_bind hrecover]
    exact ⟨_, rfl, rfl, rfl⟩
  | some peerSeq =>
    have hack : ackFrame peerSeq = .ok (.send (.ack peerSeq)) :=
      ackFrame_eq_ok.mpr ⟨hsequence peerSeq hseq, rfl⟩
    have hfirst : (do
        let ack ← Call.ofExcept (ackFrame peerSeq)
        pure [ack] : Call Error (ClaimantSession V) (List ClaimantEffect)) s =
          .ok [.send (.ack peerSeq)] s := by
      rw [hack]
      rfl
    dsimp only
    rw [Call.run_bind hfirst, Call.run_bind hrecover]
    exact ⟨_, rfl, rfl, rfl⟩

/-- With nothing handed out, an accepted receipt is authenticated and committed. -/
theorem Waits.recovers (h : s.Waits e) {object : Object} (haccepted : e.Accepted object)
    (hgate : s.persistenceGate = none) (hpending : s.pendingRecoveredReceipt = false) :
    ∃ receipt s₁ s₂, receipt.object = object ∧
      ClaimantSession.authenticateRecoveredReceiptObject object s = .ok receipt s₁ ∧
      ClaimantSession.commitRecoveredReceipt receipt s₁ = .ok [] s₂ ∧ s₂.Over := by
  obtain ⟨authority, e', hauthenticate⟩ := Endpoint.authenticateRecoveredReceipt_ok haccepted
  obtain ⟨-, hauthority, v, rfl⟩ := (e.authenticateRecoveredReceipt_meets object).ok hauthenticate
  obtain ⟨logical, hawaits, -⟩ := haccepted
  have hready : ¬ (s.persistenceGate.isSome ∨ s.phase ≠ .established ∨
      s.endpointPhase ≠ some .payloadSent ∨ s.pendingRecoveredReceipt) := by
    rw [hgate, hpending, h.established, h.endpointPhase]
    decide
  have hsession : onEndpoint (Endpoint.authenticateRecoveredReceipt object) s =
      .ok authority { s with endpoint := some { e with bodyVerifier := v } } :=
    Call.run_zoom? h.endpoint hauthenticate
  have hwaits : Waits { s with
      endpoint := some { e with bodyVerifier := v }, pendingRecoveredReceipt := true }
      { e with bodyVerifier := v } := ⟨h.seated_verifier v, rfl, h.phase⟩
  have hkept := e.kept_verifier v
  obtain ⟨s₂, hcommit, hover⟩ := hwaits.commitRecoveredReceipt
    (show Endpoint.Awaits _ (RecoveredReceipt.mk object authority none).object logical from
      hawaits.kept hkept) (hauthority.kept hkept) (by intros; contradiction) rfl hgate
      (by intros; contradiction)
  refine ⟨⟨object, authority, none⟩, _, s₂, rfl, ?_, hcommit, hover⟩
  unfold ClaimantSession.authenticateRecoveredReceiptObject
  rw [Call.run_bind (Call.run_get s), if_neg hready, Call.run_bind hsession]
  rfl

end ClaimantSession
end CredentialV2
end CbclPairing
