import CbclPairing.CredentialV2.ReceiptWait
import CbclPairing.CredentialV2.AllocatorRuns

/-! Runs of a claimant session whose consumer holds the receipts it is handed: how the
wait for the Receipt ends, and that the exact Receipt can still be committed. -/
namespace CbclPairing
namespace CredentialV2
open Codec Codec.Cbor Calls

variable [Primitives] {V : Type} [BodyVerifier V]

/-- A session with the authenticated receipts its consumer holds. A receipt has no
public constructor and no copy, and a commit takes it. -/
structure Custody (V : Type) where
  session : ClaimantSession V
  held : List RecoveredReceipt

/-- One public call with the wrapping key it is given. -/
abbrev ClaimantAct := Octets 32 × ClaimantCall

namespace ClaimantSession

/-- How a session comes to be: new, or restored from a checkpoint. -/
inductive Begins : ClaimantSession V → Prop
  | new (input : ClaimantInput) (v : V) : Begins (ClaimantSession.new input v)
  | restored {checkpoint : Bytes} {wrappingKey : Octets 32} {carrier : Carrier}
      {generation now : UInt64} {v : V} {s : ClaimantSession V} :
      restore checkpoint wrappingKey carrier generation now v = .ok s → Begins s

/-- The receipt a call hands out. -/
def handed (s : ClaimantSession V) : ClaimantCall → Option RecoveredReceipt
  | .receiveRecoveredReceipt input =>
    (Call.verdict (receiveRecoveredReceipt input s)).toOption
  | .authenticateRecoveredReceiptObject object =>
    (Call.verdict (authenticateRecoveredReceiptObject object s)).toOption
  | _ => none

theorem Begins.seated {s : ClaimantSession V} (h : s.Begins) :
    s.Seated ∧ s.pendingRecoveredReceipt = false := by
  cases h with
  | new input v =>
    refine ⟨?_, rfl⟩
    rintro e ⟨⟩
  | restored h =>
    unfold restore at h
    rw [Calls.except_bind_eq_ok] at h
    obtain ⟨est, hrestored, h⟩ := h
    obtain ⟨-, h⟩ := Calls.guard_eq_ok.mp h
    obtain rfl := Except.ok.inj h
    refine ⟨?_, rfl⟩
    rintro _ ⟨⟩
    exact ⟨(Endpoint.restoreCheckpoint_eq_ok hrestored).side, rfl, rfl, .inl rfl⟩

end ClaimantSession

namespace Custody

open ClaimantSession

variable {w : Custody V} {act : ClaimantAct}

/-- What the consumer holds after a call. -/
def kept (w : Custody V) : ClaimantCall → List RecoveredReceipt
  | .commitRecoveredReceipt receipt => w.held.erase receipt
  | call => (w.session.handed call).toList ++ w.held

def step (act : ClaimantAct) : Call Error (Custody V) (List ClaimantEffect) := fun w =>
  match ClaimantSession.call act.1 act.2 w.session with
  | .ok effects s => .ok effects ⟨s, w.kept act.2⟩
  | .error e s => .error e ⟨s, w.kept act.2⟩

/-- Only a held receipt can be committed. -/
def Owns (act : ClaimantAct) (w : Custody V) : Prop :=
  ∀ receipt, act.2 = .commitRecoveredReceipt receipt → receipt ∈ w.held

theorem after_step (act : ClaimantAct) (w : Custody V) :
    Call.after (step act w) =
      ⟨Call.after (ClaimantSession.call act.1 act.2 w.session), w.kept act.2⟩ := by
  unfold step
  cases ClaimantSession.call act.1 act.2 w.session <;> rfl

/-- The receipts held are those of the endpoint that waits, and nothing is held before. -/
structure Sound (w : Custody V) : Prop where
  seated : w.session.Seated
  receipts : (w.held = [] ∧ w.session.pendingRecoveredReceipt = false) ∨ w.session.Over ∨
    ∃ e, w.session.endpoint = some e ∧ (e.phase = .terminal ∨
      e.phase = .payloadSent ∧ w.session.pendingRecoveredReceipt = true ∧ ∀ receipt ∈ w.held,
        Issued e receipt ∧
          (receipt.peerSeq.isSome = true → w.session.hasCachedOutboundFrame = false))

theorem Sound.plain (h : w.Sound) (key : Octets 32) {c : ClaimantCall} (hplain : c.plain = true) :
    (Call.after (step (key, c) w)).Sound := by
  have hsteps := (call_steps h.seated key hplain).after
  have hkept : w.kept c = w.held := by
    cases c <;> first | rfl | cases hplain
  rw [after_step, hkept]
  refine ⟨hsteps.seated, ?_⟩
  obtain ⟨hheld, hpending⟩ | hover | ⟨e, he, hterminal | ⟨hwaits, hpending, hissued⟩⟩ := h.receipts
  · left
    refine ⟨hheld, ?_⟩
    by_contra hnot
    rw [hsteps.pending (by simpa using hnot)] at hpending
    cases hpending
  · exact .inr (.inl (hsteps.staysOver hover))
  · obtain hover | ⟨e', he', hterminal'⟩ := hsteps.ended e he hterminal
    · exact .inr (.inl hover)
    · exact .inr (.inr ⟨e', he', .inl hterminal'⟩)
  · have hwaiting : w.session.Waits e := ⟨h.seated, he, hwaits⟩
    obtain ⟨e', hkept, hrests⟩ | hforfeits := (hwaiting.rests_or_forfeits key hplain).after
    · refine .inr (.inr ⟨e', hrests.endpoint, .inr ⟨hkept.phase.trans hwaits,
        hrests.pending.trans hpending, ?_⟩⟩)
      intro receipt hreceipt
      obtain ⟨hissue, hcache⟩ := hissued receipt hreceipt
      exact ⟨hissue.kept hkept, fun hsome => hrests.cache (hcache hsome)⟩
    · obtain ⟨object, hshut⟩ | ⟨_, _, _, hover⟩ := hforfeits
      · exact .inr (.inr ⟨_, hshut, .inl rfl⟩)
      · exact .inr (.inl hover)

/-- Only a waiting session looks at a receipt. -/
theorem receipts_refused {s : ClaimantSession V} (h : s.endpointPhase ≠ some .payloadSent) :
    (∀ input, receiveRecoveredReceipt input s = .error .phase s) ∧
      (∀ object, authenticateRecoveredReceiptObject object s = .error .phase s) ∧
      ∀ receipt, commitRecoveredReceipt receipt s = .error .phase s := by
  refine ⟨?_, ?_, ?_⟩
  · intro input
    unfold receiveRecoveredReceipt
    rw [Call.run_bind (Call.run_get s), if_pos (.inr (.inr (.inl h)))]
    rfl
  · intro object
    unfold authenticateRecoveredReceiptObject
    rw [Call.run_bind (Call.run_get s), if_pos (.inr (.inr (.inl h)))]
    rfl
  · intro receipt
    unfold commitRecoveredReceipt
    rw [Call.run_bind (Call.run_get s), if_pos (.inr (.inr (.inr (.inl h))))]
    rfl

/-- A sound custody whose session waits, and one whose session does not. -/
theorem Sound.waits_or (h : w.Sound) :
    (∃ e, w.session.Waits e) ∨ w.session.endpointPhase ≠ some .payloadSent := by
  obtain hnone | ⟨e, he⟩ := Option.eq_none_or_eq_some w.session.endpoint
  · right
    unfold endpointPhase
    rw [hnone]
    intro h
    cases h
  · by_cases hphase : e.phase = .payloadSent
    · exact .inl ⟨e, h.seated, he, hphase⟩
    · right
      unfold endpointPhase
      rw [he, Option.map_some]
      exact fun heq => hphase (Option.some.inj heq)

/-- Receipts of a waiting session: none, or those handed out since. -/
theorem Sound.waiting (h : w.Sound) {e : Endpoint V} (hwaits : w.session.Waits e) :
    (w.session.pendingRecoveredReceipt = false → w.held = []) ∧
      ∀ receipt ∈ w.held, w.session.pendingRecoveredReceipt = true ∧ Issued e receipt ∧
        (receipt.peerSeq.isSome = true → w.session.hasCachedOutboundFrame = false) := by
  obtain ⟨hheld, -⟩ | ⟨hnone, -⟩ | ⟨e₁, he₁, hcase⟩ := h.receipts
  · rw [hheld]
    exact ⟨fun _ => rfl, (by intros; contradiction)⟩
  · rw [hwaits.endpoint] at hnone
    cases hnone
  · obtain rfl := Option.some.inj (hwaits.endpoint.symm.trans he₁)
    obtain hterminal | ⟨-, hpending, hissued⟩ := hcase
    · rw [hwaits.phase] at hterminal
      cases hterminal
    · refine ⟨?_, fun receipt hreceipt => ⟨hpending, hissued receipt hreceipt⟩⟩
      intro hfalse
      rw [hpending] at hfalse
      cases hfalse

/-- A waiting session after a receipt was handed out. -/
theorem sound_handed {e : Endpoint V} {receipt : RecoveredReceipt} {s' : ClaimantSession V}
    (hempty : w.held = []) (h : w.session.HandsOut e receipt s') (hwaits : w.session.Waits e) :
    Sound ⟨s', receipt :: w.held⟩ := by
  obtain ⟨v, he'⟩ := h.endpoint
  refine ⟨h.seated, .inr (.inr ⟨_, he', .inr ⟨hwaits.phase, h.pending, ?_⟩⟩)⟩
  intro receipt' hmem
  rw [hempty, List.mem_singleton] at hmem
  subst hmem
  exact ⟨h.issued.kept (e.kept_verifier v), h.uncached⟩

/-- A session that still waits, with the receipts it had. -/
theorem Sound.rests (h : w.Sound) {e e' : Endpoint V} (hwaits : w.session.Waits e)
    (hkept : e.Kept e') {s' : ClaimantSession V} (hseated : s'.Seated)
    (hrests : w.session.Rests e' s') {held : List RecoveredReceipt} (hsub : held ⊆ w.held) :
    Sound ⟨s', held⟩ := by
  obtain ⟨hnone, hissued⟩ := h.waiting hwaits
  refine ⟨hseated, ?_⟩
  by_cases hpending : w.session.pendingRecoveredReceipt = true
  · refine .inr (.inr ⟨e', hrests.endpoint, .inr ⟨hkept.phase.trans hwaits.phase,
      hrests.pending.trans hpending, ?_⟩⟩)
    intro receipt hreceipt
    obtain ⟨-, hissue, hcache⟩ := hissued receipt (hsub hreceipt)
    exact ⟨hissue.kept hkept, fun hsome => hrests.cache (hcache hsome)⟩
  · rw [Bool.not_eq_true] at hpending
    rw [hnone hpending] at hsub
    exact .inl ⟨List.subset_nil.mp hsub, hrests.pending.trans hpending⟩

theorem sound_over {s' : ClaimantSession V} (h : s'.Over) (held : List RecoveredReceipt) :
    Sound ⟨s', held⟩ := by
  refine ⟨?_, .inr (.inl h)⟩
  intro e he
  rw [h.1] at he
  cases he

/-- Holding fewer receipts. -/
theorem Sound.sub (h : w.Sound) {held : List RecoveredReceipt} (hsub : held ⊆ w.held) :
    Sound ⟨w.session, held⟩ := by
  refine ⟨h.seated, ?_⟩
  obtain ⟨hheld, hpending⟩ | hover | ⟨e, he, hterminal | ⟨hwaits, hpending, hissued⟩⟩ := h.receipts
  · rw [hheld] at hsub
    exact .inl ⟨List.subset_nil.mp hsub, hpending⟩
  · exact .inr (.inl hover)
  · exact .inr (.inr ⟨e, he, .inl hterminal⟩)
  · exact .inr (.inr ⟨e, he, .inr ⟨hwaits, hpending, fun receipt hmem =>
      hissued receipt (hsub hmem)⟩⟩)

/-- A call that hands out a receipt, or refuses to. -/
theorem after_receive (key : Octets 32) (input : ServerInput) (w : Custody V) :
    Call.after (step (key, .receiveRecoveredReceipt input) w) =
      match receiveRecoveredReceipt input w.session with
      | .ok receipt s => ⟨s, receipt :: w.held⟩
      | .error _ s => ⟨s, w.held⟩ := by
  rw [after_step]
  simp only [ClaimantSession.call, kept, handed, bind, EStateM.bind]
  cases receiveRecoveredReceipt input w.session <;> rfl

theorem after_authenticate (key : Octets 32) (object : Object) (w : Custody V) :
    Call.after (step (key, .authenticateRecoveredReceiptObject object) w) =
      match authenticateRecoveredReceiptObject object w.session with
      | .ok receipt s => ⟨s, receipt :: w.held⟩
      | .error _ s => ⟨s, w.held⟩ := by
  rw [after_step]
  simp only [ClaimantSession.call, kept, handed, bind, EStateM.bind]
  cases authenticateRecoveredReceiptObject object w.session <;> rfl

theorem Sound.receive (h : w.Sound) (key : Octets 32) (input : ServerInput) :
    (Call.after (step (key, .receiveRecoveredReceipt input) w)).Sound := by
  rw [after_receive]
  obtain ⟨e, hwaits⟩ | hnot := h.waits_or
  · have hcontract := hwaits.receiveRecoveredReceipt input
    cases hresult : receiveRecoveredReceipt input w.session with
    | ok receipt s' =>
      have hands := hcontract.ok hresult
      exact sound_handed ((h.waiting hwaits).1 hands.fresh) hands hwaits
    | error error s' =>
      obtain rfl | hover := hcontract.error hresult
      · exact h
      · exact sound_over hover _
  · rw [(receipts_refused hnot).1]
    exact h

theorem Sound.authenticate (h : w.Sound) (key : Octets 32) (object : Object) :
    (Call.after (step (key, .authenticateRecoveredReceiptObject object) w)).Sound := by
  rw [after_authenticate]
  obtain ⟨e, hwaits⟩ | hnot := h.waits_or
  · have hcontract := hwaits.authenticateRecoveredReceiptObject object
    cases hresult : authenticateRecoveredReceiptObject object w.session with
    | ok receipt s' =>
      obtain ⟨-, hands⟩ := hcontract.ok hresult
      exact sound_handed ((h.waiting hwaits).1 hands.fresh) hands hwaits
    | error error s' =>
      obtain ⟨v, hrests, hseated⟩ := hcontract.error hresult
      exact h.rests hwaits (e.kept_verifier v) hseated hrests fun _ => id
  · rw [(receipts_refused hnot).2.1]
    exact h

theorem Sound.commit (h : w.Sound) (key : Octets 32) (receipt : RecoveredReceipt) :
    (Call.after (step (key, .commitRecoveredReceipt receipt) w)).Sound := by
  have hcontract := commitRecoveredReceipt_meets w.session receipt
  rw [after_step]
  simp only [ClaimantSession.call, kept]
  cases hresult : commitRecoveredReceipt receipt w.session with
  | ok effects s' => exact sound_over (hcontract.ok hresult) _
  | error error s' =>
    obtain rfl := hcontract.error hresult
    exact h.sub List.erase_subset

theorem Sound.step (h : w.Sound) (act : ClaimantAct) : (Call.after (step act w)).Sound := by
  obtain ⟨key, c⟩ := act
  cases c with
  | receiveRecoveredReceipt input => exact h.receive key input
  | authenticateRecoveredReceiptObject object => exact h.authenticate key object
  | commitRecoveredReceipt receipt => exact h.commit key receipt
  | _ => exact h.plain key rfl

/-- Every state of a run is sound, and every receipt held was handed out in the run. -/
theorem sound_run {s : ClaimantSession V} (hbegins : s.Begins) (acts : List ClaimantAct) :
    (Runs.after step ⟨s, []⟩ acts).Sound ∧ ∀ receipt ∈ (Runs.after step ⟨s, []⟩ acts).held,
      ∃ before act rest, acts = before ++ act :: rest ∧
        (Runs.after step ⟨s, []⟩ before).session.handed act.2 = some receipt := by
  refine Runs.invariant step (P := fun acts (w : Custody V) => Sound w ∧ ∀ receipt ∈ w.held,
    ∃ before act rest, acts = before ++ act :: rest ∧
      (Runs.after step ⟨s, []⟩ before).session.handed act.2 = some receipt) ?_ ?_ acts
  · obtain ⟨hseated, hpending⟩ := hbegins.seated
    exact ⟨⟨hseated, .inl ⟨rfl, hpending⟩⟩, (by intros; contradiction)⟩
  · rintro acts act ⟨hsound, hheld⟩
    refine ⟨hsound.step act, ?_⟩
    intro receipt hmem
    rw [after_step] at hmem
    have hcases : receipt ∈ (Runs.after step ⟨s, []⟩ acts).held ∨
        (Runs.after step ⟨s, []⟩ acts).session.handed act.2 = some receipt := by
      unfold kept at hmem
      split at hmem
      · exact .inl (List.erase_subset hmem)
      · obtain hmem | hmem := List.mem_append.mp hmem
        · exact .inr (Option.mem_toList.mp hmem)
        · exact .inl hmem
    obtain hbefore | hhanded := hcases
    · obtain ⟨before, act', rest, rfl, hhanded⟩ := hheld receipt hbefore
      exact ⟨before, act', rest ++ [act], by simp, hhanded⟩
    · exact ⟨acts, act, [], rfl, hhanded⟩

/-! ### The promise -/

/-- A receipt that some earlier act of a run handed out. -/
def Handed (s : ClaimantSession V) (acts : List ClaimantAct) (receipt : RecoveredReceipt) : Prop :=
  ∃ before act rest, acts = before ++ act :: rest ∧
    (Runs.after step ⟨s, []⟩ before).session.handed act.2 = some receipt

/-- Where one call leads a session whose endpoint waits. A success keeps the endpoint,
stamps it, moves its verifier, or commits a receipt of this run that fits the wait and
that the verifier accepted. A failure keeps the endpoint too, but for what the verifier
keeps for itself, unless a relay frame was refused or an own object was out of place. -/
inductive Follows (s : ClaimantSession V) (acts : List ClaimantAct) (w : Custody V)
    (e : Endpoint V) (c : ClaimantCall) :
    EStateM.Result Error (ClaimantSession V) (List ClaimantEffect) → Prop
  | unchanged {effects : List ClaimantEffect} {s' : ClaimantSession V} : s'.endpoint = some e →
      Follows s acts w e c (.ok effects s')
  | stamped {effects : List ClaimantEffect} {s' : ClaimantSession V} {generation : UInt64}
      {nonce : Octets 12} : (∃ input now nonce, c = .receiveDurable input now nonce) →
      s'.endpoint = some (e.stamped generation nonce) → Follows s acts w e c (.ok effects s')
  | authenticated {effects : List ClaimantEffect} {s' : ClaimantSession V}
      {receipt : RecoveredReceipt} {v : V} : w.session.handed c = some receipt →
      s'.endpoint = some { e with bodyVerifier := v } → Follows s acts w e c (.ok effects s')
  | committed {effects : List ClaimantEffect} {s' : ClaimantSession V}
      {receipt : RecoveredReceipt} : c = .commitRecoveredReceipt receipt →
      (∃ logical, e.Awaits receipt.object logical) →
      (∃ e₀ : Endpoint V, e₀.Kept e ∧ e₀.Accepted receipt.object) → Handed s acts receipt →
      s'.Over → Follows s acts w e c (.ok effects s')
  | refused {error : Error} {s' : ClaimantSession V} : s'.endpoint = some e →
      Follows s acts w e c (.error error s')
  | unauthenticated {error : Error} {s' : ClaimantSession V} {object : Object} {v : V} :
      c = .authenticateRecoveredReceiptObject object →
      s'.endpoint = some { e with bodyVerifier := v } → Follows s acts w e c (.error error s')
  | ended {error : Error} {s' : ClaimantSession V} {input : ServerInput} :
      c = .receiveRecoveredReceipt input → s'.Over → Follows s acts w e c (.error error s')
  | forfeited {error : Error} {s' : ClaimantSession V} : Forfeits w.session e c s' →
      Follows s acts w e c (.error error s')

/-- What a claimant that waits for its Receipt can rely on, after the acts of a run. -/
structure Outlook (s : ClaimantSession V) (acts : List ClaimantAct) (w : Custody V)
    (e : Endpoint V) : Prop where
  next : ∀ act, Owns act w →
    Follows s acts w e act.2 (ClaimantSession.call act.1 act.2 w.session)
  /-- An acknowledgement that was already applied changes nothing. -/
  repeats : ∀ relay sequence hsequence now key nonce, w.session.relay = some relay →
    relay.acknowledgementAlreadyApplied sequence = true → w.session.persistenceGate = none →
      receiveDurable (.ok ⟨.acknowledged sequence, hsequence⟩) now key nonce w.session =
        .ok [] w.session
  /-- An open gate closes with its confirmation. -/
  confirms : ∀ generation, w.session.persistenceGate = some generation →
    ∃ effects s', checkpointPersisted generation w.session = .ok effects s' ∧
      s'.endpoint = some e ∧ s'.persistenceGate = none
  /-- With nothing handed out, the exact Receipt is authenticated and committed. -/
  recovers : w.session.persistenceGate = none → w.session.pendingRecoveredReceipt = false →
    ∀ object, e.Accepted object → ∃ receipt s₁ s₂, receipt.object = object ∧
      authenticateRecoveredReceiptObject object w.session = .ok receipt s₁ ∧
      commitRecoveredReceipt receipt s₁ = .ok [] s₂ ∧ s₂.Over
  /-- A receipt handed out and still held is committed. -/
  commits : w.session.persistenceGate = none → ∀ receipt ∈ w.held,
    ∃ s', commitRecoveredReceipt receipt w.session =
      .ok (receipt.peerSeq.toList.map fun peerSeq => .send (.ack peerSeq)) s' ∧ s'.Over

theorem follows_plain {s : ClaimantSession V} {acts : List ClaimantAct} {e : Endpoint V}
    (hwaits : w.session.Waits e) (key : Octets 32) {c : ClaimantCall} (hplain : c.plain = true) :
    Follows s acts w e c (ClaimantSession.call key c w.session) := by
  have hcontract := hwaits.call_plain key hplain
  cases hresult : ClaimantSession.call key c w.session with
  | ok effects s' =>
    obtain hrests | ⟨hdurable, generation, nonce, hrests⟩ := hcontract.ok hresult
    · exact .unchanged hrests.endpoint
    · exact .stamped hdurable hrests.endpoint
  | error error s' =>
    obtain hrests | hforfeits := hcontract.error hresult
    · exact .refused hrests.endpoint
    · exact .forfeited hforfeits

theorem follows_act {s : ClaimantSession V} {acts : List ClaimantAct} {e : Endpoint V}
    (hsound : w.Sound) (hheld : ∀ receipt ∈ w.held, Handed s acts receipt)
    (hwaits : w.session.Waits e) (act : ClaimantAct) (howns : Owns act w) :
    Follows s acts w e act.2 (ClaimantSession.call act.1 act.2 w.session) := by
  obtain ⟨key, c⟩ := act
  cases c with
  | receiveRecoveredReceipt input =>
    have hcontract := hwaits.receiveRecoveredReceipt input
    simp only [ClaimantSession.call, bind, EStateM.bind]
    cases hresult : receiveRecoveredReceipt input w.session with
    | ok receipt s' =>
      obtain ⟨v, he'⟩ := (hcontract.ok hresult).endpoint
      have hhanded : w.session.handed (.receiveRecoveredReceipt input) = some receipt := by
        simp [handed, hresult, Except.toOption]
      exact .authenticated hhanded he'
    | error error s' =>
      obtain rfl | hover := hcontract.error hresult
      · exact .refused hwaits.endpoint
      · exact .ended rfl hover
  | authenticateRecoveredReceiptObject object =>
    have hcontract := hwaits.authenticateRecoveredReceiptObject object
    simp only [ClaimantSession.call, bind, EStateM.bind]
    cases hresult : authenticateRecoveredReceiptObject object w.session with
    | ok receipt s' =>
      obtain ⟨v, he'⟩ := (hcontract.ok hresult).2.endpoint
      have hhanded : w.session.handed (.authenticateRecoveredReceiptObject object) =
          some receipt := by
        simp [handed, hresult, Except.toOption]
      exact .authenticated hhanded he'
    | error error s' =>
      obtain ⟨v, hrests, -⟩ := hcontract.error hresult
      exact .unauthenticated rfl hrests.endpoint
  | commitRecoveredReceipt receipt =>
    have hcontract := commitRecoveredReceipt_meets w.session receipt
    have hmem := howns receipt rfl
    obtain ⟨-, hissued, -⟩ := (hsound.waiting hwaits).2 receipt hmem
    simp only [ClaimantSession.call]
    cases hresult : commitRecoveredReceipt receipt w.session with
    | ok effects s' =>
      exact .committed rfl hissued.awaits hissued.accepted (hheld receipt hmem)
        (hcontract.ok hresult)
    | error error s' =>
      obtain rfl := hcontract.error hresult
      exact .refused hwaits.endpoint
  | _ => exact follows_plain hwaits key rfl

end Custody
end CredentialV2
end CbclPairing

/-! ### A session that waits -/

namespace CbclPairing
namespace CredentialV2
open Codec Calls

attribute [local instance] Primitives.transparent

namespace ClaimantSession

/-- A claimant that sent its Payload, which no Ack has removed from the cache yet. -/
def sentPayload : Established Unit where
  endpoint :=
    { side := .claimant, carrier := .sample, phase := .payloadSent
      intentDigest := some (fill 32 [5])
      last := some ⟨.claimant, none, .payload, fill 32 [5], fill 32 [6]⟩
      bodyVerifier := (), checkpointGeneration := 0, checkpointNonce := none }
  channel :=
    { localSide := .claimant, transcriptHash := fill 64 [7], sendKey := fill 32 [8]
      receiveKey := fill 32 [9], sendIv := fill 12 [10], receiveIv := fill 12 [11]
      exporter := fill 32 [12], nextSendCounter := some 1, nextReceiveCounter := some 1
      terminal := false }
  relay :=
    { membershipToken := fill 32 [13], nextLocalSequence := 1, nextPeerSequence := 0
      awaitingAck := true
      cachedOutbound := some (.sealed .claimantToAllocator 0 (List.replicate 17 0)) }

def sentPayloadCheckpoint : Bytes :=
  value (Call.verdict (Endpoint.sealCheckpoint sentPayload.channel sentPayload.relay
    (fill 32 [14]) 1 none (fill 12 [15]) 50 sentPayload.endpoint)) (by decide +kernel)

def sample : ClaimantSession Unit :=
  value (restore sentPayloadCheckpoint (fill 32 [14]) .sample 1 200 ()) (by decide +kernel)

theorem begins_sample : sample.Begins := .restored (eq_ok_value _ _)

def finalApproval : Object := ⟨.finalApprove, fill 32 [5], [0], by decide, by decide⟩

def lateApproval : ClaimantAct :=
  (fill 32 [14], .prepareFinalApproval finalApproval (fill 12 [16]) 50)

end ClaimantSession

namespace Custody

/-- A receipt object of the wrong kind is refused, and the wait goes on. -/
def wrongReceipt : ClaimantAct :=
  (fill 32 [14], .authenticateRecoveredReceiptObject ClaimantSession.finalApproval)

def waitingSample : Endpoint Unit :=
  (Runs.after step ⟨ClaimantSession.sample, []⟩ [wrongReceipt]).session.endpoint.get
    (by decide +kernel)

end Custody
end CredentialV2
end CbclPairing
