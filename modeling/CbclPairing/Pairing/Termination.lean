import CbclPairing.Pairing.EndpointRuns
import CbclPairing.Wire.RoundTrip

/-! Termination of the version 1 reducer is absorbing and erasing. After a claimant's
own decline the replay check takes a frame without an encoding for the declined one. -/
namespace CbclPairing
namespace Pairing
open Codec Codec.Cbor Calls Wire

/-- The order of the three statuses. -/
def InvitationStatus.rank : InvitationStatus → ℕ
  | .unused => 0
  | .bound => 1
  | .spent => 2

/-- A record's own calls move its status forward only. -/
theorem InvitationRecord.bind_rank [Primitives] (mailboxId : Octets 32)
    (peerCpaceFrame publicContext : Bytes) (r : InvitationRecord) :
    (bind mailboxId peerCpaceFrame publicContext).Meets
      (fun _ r' => r.status.rank ≤ r'.status.rank) (fun _ r' => r.status.rank ≤ r'.status.rank)
      r := by
  unfold InvitationRecord.bind
  rw [Call.meets_bind, Call.meets_get]
  rcases hstatus : r.status with _ | _ | _
  · exact Nat.zero_le _
  · simp only [Call.meets_ite, Call.meets_pure, Call.meets_bind, Call.meets_set, Call.meets_throw,
      hstatus]
    exact ⟨fun _ => le_rfl, fun _ => Nat.le_succ 1⟩
  · exact (congrArg InvitationStatus.rank hstatus).ge

namespace EndpointReducer

variable [Cbcl] [Primitives] {π : Type} [ApplicationProfile π] {s₀ s : EndpointReducer π}

/-- One operation, with its reply as the one thing it returns. -/
def step (op : Operation) : Call ReducerError (EndpointReducer π) (List Reply) :=
  (fun reply => [reply]) <$> run op

/-! ### What the claim says of a run -/

/-- The run was ended as declined by this operation. -/
def DeclinedBy (s₀ : EndpointReducer π) (calls : List Operation) (op : Operation) : Prop :=
  ∃ before rest, calls = before ++ op :: rest ∧ (Runs.after step s₀ before).terminal = none ∧
    (Runs.after step s₀ (before ++ [op])).terminal = some .declined

/-- Two frames are the same, or their encodings collide. -/
def SameFrame (frame declined : ChannelFrame) : Prop :=
  frame = declined ∨ ∃ encoded encoded', encodeChannelFrame frame = .ok encoded ∧
    encodeChannelFrame declined = .ok encoded' ∧ encoded ≠ encoded' ∧
    sha256 encoded = sha256 encoded'

/-- How an operation after the end may answer: with the terminal error, or, after a
decline, without effects for the declined frame or for the decline said again. -/
def Answers (s₀ : EndpointReducer π) (before : List Operation) (op : Operation) : Prop :=
  Call.verdict (run op (Runs.after step s₀ before)) = .error .terminal ∨
    Call.verdict (run op (Runs.after step s₀ before)) = .ok (.effects []) ∧
      ((∃ frame declined, op = .receiveFrame frame ∧ DeclinedBy s₀ before (.receiveFrame declined) ∧
          SameFrame frame declined) ∨
        op = .decide .decline ∧ DeclinedBy s₀ before (.decide .decline))

/-- Termination is absorbing and erasing along a run. -/
structure Absorbing (s₀ : EndpointReducer π) (calls : List Operation) : Prop where
  stays : ∀ before more reason, calls = before ++ more →
    (Runs.after step s₀ before).terminal = some reason →
    (Runs.after step s₀ calls).terminal = some reason
  erased : ∀ before more, calls = before ++ more → (Runs.after step s₀ before).terminal.isSome →
    Erased (Runs.after step s₀ before)
  answers : ∀ before op more, calls = before ++ op :: more →
    (Runs.after step s₀ before).terminal.isSome → Answers s₀ before op
  status : s₀.record.status = .bound ∧ ∀ before more, calls = before ++ more →
    (Runs.after step s₀ before).record.status.rank ≤ (Runs.after step s₀ calls).record.status.rank
  spent : ∀ before op more pending, calls = before ++ op :: more →
    Confirms pending (Runs.after step s₀ before) op →
    (Runs.after step s₀ calls).record.status = .spent

/-- A frame given to a claimant that declined has an encoding. -/
def Encodable (op : Operation) (s : EndpointReducer π) : Prop :=
  ∀ frame, op = .receiveFrame frame → s.terminal = some .declined → s.side = .claimant →
    ∃ encoded, encodeChannelFrame frame = .ok encoded

/-! ### One operation -/

theorem after_step_over {reason : TerminalReason} (op : Operation)
    (hover : s.terminal = some reason) : Call.after (step op s) = s := by
  rw [step, Call.after_map]
  obtain h | ⟨-, h, -⟩ := run_over op hover
  · rw [h, Call.after_error]
  · rw [h, Call.after_ok]

theorem after_step_live (op : Operation) (hlive : s.terminal = none) :
    Step op s (Call.after (step op s)) := by
  rw [step, Call.after_map]
  exact ((run_live op hlive).mono (fun _ _ h => h.1) fun _ _ => id).after

omit [ApplicationProfile π] in
theorem Step.kept {op : Operation} {t : EndpointReducer π} (h : Step op s t) : Kept s t := by
  cases h with
  | lives h => exact h.toKept
  | falls h => exact h.toKept
  | declined hkept => exact hkept

omit [ApplicationProfile π] in
/-- A spent record stays spent; before that an operation leaves the record as it is. -/
theorem Step.record {op : Operation} {t : EndpointReducer π} (h : Step op s t) :
    t.record = s.record ∨ t.record.status = .spent := by
  cases h with
  | lives h =>
    obtain ⟨-, -, hrecord⟩ | ⟨pending, -, -, -, hrecord⟩ := h.channel
    · exact .inl hrecord
    · exact .inr (by rw [hrecord]; rfl)
  | falls h => exact .inr h.erased.status
  | declined _ _ herased => exact .inr herased.status

omit [ApplicationProfile π] in
/-- A confirmed Finished value spends the invitation in the same operation. -/
theorem receiveFinished_confirms {pending : PendingChannel} {frame : FinishedFrame}
    (h : ConfirmsFrame pending s frame) :
    (Call.after (receiveFinished frame s)).record.status = .spent := by
  obtain ⟨monitor, monitor', admission, hmonitor, hadmit, hvalid⟩ := h.admitted
  have hfinished : ¬ s.localFinished.isNone = true := by
    simpa using Option.isSome_iff_ne_none.mp h.localFinished
  have hpinned : validateExpectedRoleKeys s = .ok ⟨⟩ s := by
    unfold validateExpectedRoleKeys
    rw [Call.run_bind (Call.run_get s), if_neg (pinned_iff.mp h.pinned), Call.run_pure]
  have hboot : admitBootstrap (finishedPerformative frame.side) frame.control frame.value.val s =
      .ok (.ok admission) { s with bootstrap := some monitor' } :=
    Call.run_zoom? hmonitor (by simp only [Call.attempt, hadmit])
  unfold receiveFinished
  rw [Call.run_bind (Call.run_get s), if_neg h.side, if_neg hfinished, h.pendingChannel, h.channel]
  dsimp only
  rw [Call.run_bind hpinned, Call.run_bind hboot]
  dsimp only
  rw [hvalid]
  have hmeets : (confirmPeer pending frame.value).Meets (fun _ t => t.record.status = .spent)
      (fun _ t => t.record.status = .spent) { s with bootstrap := some monitor' } := by
    refine confirmPeer_meets.mono ?_ ?_
    · rintro emitted t ⟨h, -⟩
      rw [h.record]
      rfl
    · rintro _ t (h | ⟨h, -⟩)
      · exact h.erased.status
      · rw [h.record]
        rfl
  exact hmeets.after

theorem Confirms.spent {pending : PendingChannel} {op : Operation} (h : Confirms pending s op) :
    (Call.after (step op s)).record.status = .spent := by
  obtain ⟨frame, hpresents, hconfirms⟩ := h
  have hspent := receiveFinished_confirms hconfirms
  rw [step, Call.after_map]
  obtain rfl | ⟨rfl, hpending⟩ := hpresents
  · rw [run, Call.after_map]
    unfold EndpointReducer.receiveFrame
    rw [Call.run_bind (Call.run_get s), hconfirms.live, if_neg (by decide)]
    exact hspent
  · have hlive : ensureLive s = .ok ⟨⟩ s := by
      unfold ensureLive
      rw [Call.run_bind (Call.run_get s), hconfirms.live, if_neg (by decide), Call.run_pure]
    rw [run, Call.after_map, EndpointReducer.retryPendingFinished, Call.run_bind hlive,
      Call.run_bind (Call.run_get s), hpending]
    exact hspent

/-! ### Runs -/

/-- What every run keeps. -/
structure Sound (s₀ : EndpointReducer π) (calls : List Operation) (s : EndpointReducer π) :
    Prop where
  side : s.side = s₀.side
  unmarked : s.terminal = none →
    s.localDeclineCommitted = false ∧ s.terminalReplayFrameDigest = none
  erased : s.terminal.isSome → Erased s
  status : s.record.status = .bound ∨ s.record.status = .spent
  declined : s.terminal = some .declined →
    s.side = .claimant ∧ s.terminalReplayFrameDigest = none ∧
        DeclinedBy s₀ calls (.decide .decline) ∨
      s.side = .allocator ∧ s.localDeclineCommitted = false ∧ ∃ frame digest,
        channelFrameDigest frame = .ok digest ∧ s.terminalReplayFrameDigest = some digest ∧
        DeclinedBy s₀ calls (.receiveFrame frame)

theorem DeclinedBy.append {calls : List Operation} {op : Operation} (h : DeclinedBy s₀ calls op)
    (more : List Operation) : DeclinedBy s₀ (calls ++ more) op := by
  obtain ⟨before, rest, rfl, hlive, hover⟩ := h
  exact ⟨before, rest ++ more, by simp, hlive, hover⟩

/-- An operation on a reducer that is over adds nothing but its answer. -/
theorem Sound.answered {calls : List Operation} (h : Sound s₀ calls s) (op : Operation)
    (hover : s.terminal.isSome) : Sound s₀ (calls ++ [op]) s where
  side := h.side
  unmarked hlive := by rw [hlive] at hover; cases hover
  erased := h.erased
  status := h.status
  declined hdeclined := by
    obtain ⟨hside, hreplay, hby⟩ | ⟨hside, hcommitted, frame, digest, hdigest, hreplay, hby⟩ :=
      h.declined hdeclined
    · exact .inl ⟨hside, hreplay, hby.append [op]⟩
    · exact .inr ⟨hside, hcommitted, frame, digest, hdigest, hreplay, hby.append [op]⟩

/-- Each of the three things a live step can do keeps the invariant. -/
theorem Sound.step {calls : List Operation} (h : Sound s₀ calls (Runs.after step s₀ calls))
    (op : Operation) : Sound s₀ (calls ++ [op]) (Runs.after step s₀ (calls ++ [op])) := by
  rcases hterminal : (Runs.after EndpointReducer.step s₀ calls).terminal with _ | reason
  swap
  · rw [Runs.after_concat, after_step_over op hterminal]
    exact h.answered op (by rw [hterminal]; rfl)
  have hstep := after_step_live op hterminal
  have hby : ∀ op', op = op' →
      (Call.after (EndpointReducer.step op (Runs.after EndpointReducer.step s₀ calls))).terminal =
        some .declined → DeclinedBy s₀ (calls ++ [op]) op' := by
    rintro _ rfl hdeclined
    refine ⟨calls, [], rfl, hterminal, ?_⟩
    rw [Runs.after_concat]
    exact hdeclined
  rw [Runs.after_concat]
  have hside := hstep.kept.side.trans h.side
  have hstatus : ∀ {r : InvitationRecord},
      r = (Runs.after EndpointReducer.step s₀ calls).record ∨ r.status = .spent →
        r.status = .bound ∨ r.status = .spent := by
    rintro r (rfl | hspent)
    · exact h.status
    · exact .inr hspent
  refine ⟨hside, ?_, ?_, hstatus hstep.record, ?_⟩
  · intro hlive
    cases hstep with
    | lives hlives =>
      obtain ⟨hcommitted, hreplay⟩ := h.unmarked hterminal
      exact ⟨hlives.localDeclineCommitted.trans hcommitted, hlives.replay.trans hreplay⟩
    | falls hfalls =>
      obtain ⟨reason, -, hover⟩ := hfalls.ended
      cases hlive.symm.trans hover
    | declined _ hover => cases hlive.symm.trans hover
  · intro hover
    cases hstep with
    | lives hlives =>
      rw [hlives.live] at hover
      cases hover
    | falls hfalls => exact hfalls.erased
    | declined _ _ herased => exact herased
  · intro hdeclined
    obtain ⟨hcommitted, hreplay⟩ := h.unmarked hterminal
    cases hstep with
    | lives hlives => cases hlives.live.symm.trans hdeclined
    | falls hfalls =>
      obtain ⟨reason, hreason, hover⟩ := hfalls.ended
      exact absurd (Option.some.inj (hover.symm.trans hdeclined)) hreason
    | declined hkept _ _ hcase =>
      cases hcase with
      | taken hop hallocator hdigest hreplay' hcommitted' =>
        exact .inr ⟨hkept.side.trans hallocator, hcommitted'.trans hcommitted, _, _, hdigest,
          hreplay', hby _ hop hdeclined⟩
      | given hop hclaimant _ hreplay' =>
        exact .inl ⟨hkept.side.trans hclaimant, hreplay'.trans hreplay, hby _ hop hdeclined⟩

/-- A new reducer holds exactly what it was given, and its monitor's keys are the
expected ones. -/
theorem new_eq {isRootOrigin : Bytes → Bool} {side : Side} {invitation : Bytes}
    {record : InvitationRecord} {ceremonyKey : CeremonySigningKey} {bootstrap : BootstrapMonitor}
    {pendingChannel : PendingChannel} {allocatorCpaceHash claimantCpaceHash : Bytes} {profile : π}
    (hnew : new isRootOrigin side invitation record ceremonyKey bootstrap pendingChannel
      allocatorCpaceHash claimantCpaceHash profile = .ok s₀) :
    record.status = .bound ∧ s₀.Pinned ∧
      ∃ value, decodeInvitation isRootOrigin invitation = .ok value ∧ s₀ =
        { side, application := value.application.val, ceremony := ceremonyId invitation
          expectedRoleKeys := ![value.expectedAllocatorKey, value.expectedClaimantKey]
          profile, record, ceremonyKey := some ceremonyKey, bootstrap := some bootstrap
          pendingChannel := some pendingChannel, channel := none, session := none
          allocatorCpaceHash, claimantCpaceHash, localFinished := none, pendingFinished := none
          pendingApplications := [], intent := none, decision := none, payloadControlHash := none
          outboundPayloadSent := false, deliveredPayloads := 0, profileVerifications := 0
          terminal := none, localDeclineCommitted := false
          terminalReplayFrameDigest := none } := by
  unfold new at hnew
  obtain ⟨hrecord, hnew⟩ := Calls.guard_eq_ok.mp hnew
  simp only [not_or, ne_eq, not_not] at hrecord
  simp only [except_bind_eq_ok] at hnew
  obtain ⟨value, hvalue, hnew⟩ := hnew
  rcases hprofile : ApplicationProfile.recogniseInvitation profile value with _ | _
  · rw [hprofile] at hnew
    cases hnew
  rw [hprofile] at hnew
  obtain ⟨hpinned, hnew⟩ := Calls.guard_eq_ok.mp hnew
  obtain rfl := Except.ok.inj hnew
  exact ⟨hrecord.1, pinned_iff.mpr hpinned, value, mapError_eq_ok.mp hvalue, rfl⟩

theorem new_sound {isRootOrigin : Bytes → Bool} {side : Side} {invitation : Bytes}
    {record : InvitationRecord} {ceremonyKey : CeremonySigningKey} {bootstrap : BootstrapMonitor}
    {pendingChannel : PendingChannel} {allocatorCpaceHash claimantCpaceHash : Bytes} {profile : π}
    (hnew : new isRootOrigin side invitation record ceremonyKey bootstrap pendingChannel
      allocatorCpaceHash claimantCpaceHash profile = .ok s₀) :
    s₀.record.status = .bound ∧ Sound s₀ [] s₀ := by
  obtain ⟨hbound, -, value, -, rfl⟩ := new_eq hnew
  refine ⟨hbound, rfl, fun _ => ⟨rfl, rfl⟩, ?_, .inl hbound, ?_⟩
  · intro hover
    cases hover
  · intro hdeclined
    cases hdeclined

theorem run_sound (h : Sound s₀ [] s₀) (calls : List Operation) :
    Sound s₀ calls (Runs.after step s₀ calls) :=
  Runs.invariant step h (fun calls op h => Runs.after_concat step s₀ calls op ▸ h.step op) calls

theorem run_over_stays {reason : TerminalReason} (more : List Operation)
    (hover : s.terminal = some reason) : Runs.after step s more = s := by
  induction more with
  | nil => rfl
  | cons op more ih => rw [Runs.after_cons, after_step_over op hover, ih]

theorem run_spent (more : List Operation) (hspent : s.record.status = .spent) :
    (Runs.after step s more).record.status = .spent := by
  induction more generalizing s with
  | nil => exact hspent
  | cons op more ih =>
    rw [Runs.after_cons]
    apply ih
    rcases hterminal : s.terminal with _ | reason
    · obtain hrecord | hspent := (after_step_live op hterminal).record
      · rw [hrecord]
        exact hspent
      · exact hspent
    · rw [after_step_over op hterminal]
      exact hspent

/-- The reducer of a claimant is never ended by the peer's decline. -/
theorem DeclinedBy.allocator {calls : List Operation} {frame : ChannelFrame}
    (hsound : Sound s₀ [] s₀) (h : DeclinedBy s₀ calls (.receiveFrame frame)) :
    s₀.side = .allocator := by
  obtain ⟨before, rest, -, hlive, hdeclined⟩ := h
  rw [Runs.after_concat] at hdeclined
  have hside := (run_sound hsound before).side
  cases after_step_live (.receiveFrame frame) hlive with
  | lives hlives => cases hlives.live.symm.trans hdeclined
  | falls hfalls =>
    obtain ⟨reason, hreason, hover⟩ := hfalls.ended
    exact absurd (Option.some.inj (hover.symm.trans hdeclined)) hreason
  | declined _ _ _ hcase =>
    cases hcase with
    | taken _ hallocator => exact hside.symm.trans hallocator
    | given hop => cases hop

omit [Cbcl] in
/-- Frames with one digest are the same frame, or collide. -/
theorem sameFrame_of_digest {frame declined : ChannelFrame} {digest : Octets 32}
    (h : channelFrameDigest frame = .ok digest) (h' : channelFrameDigest declined = .ok digest) :
    SameFrame frame declined := by
  simp only [channelFrameDigest, orRecognition, except_bind_eq_ok, mapError_eq_ok] at h h'
  obtain ⟨encoded, hencoded, h⟩ := h
  obtain ⟨encoded', hencoded', h'⟩ := h'
  by_cases hsame : encoded = encoded'
  · subst hsame
    have hdecode := channelFrame_faithful.bijective.decode_of_encode frame encoded hencoded
    have hdecode' := channelFrame_faithful.bijective.decode_of_encode declined encoded hencoded'
    exact .inl (Except.ok.inj (hdecode.symm.trans hdecode'))
  · exact .inr ⟨encoded, encoded', hencoded, hencoded', hsame,
      (Except.ok.inj h).trans (Except.ok.inj h').symm⟩

omit [Cbcl] [Primitives] in
theorem toOption_eq_some {ε α : Type} {x : Except ε α} {a : α} :
    x.toOption = some a ↔ x = .ok a := by
  cases x <;> simp [Except.toOption]

omit [Cbcl] in
theorem digest_isOk {frame : ChannelFrame} {encoded : Bytes}
    (h : encodeChannelFrame frame = .ok encoded) :
    channelFrameDigest frame = .ok (sha256 encoded) := by
  simp only [channelFrameDigest, orRecognition, h, Except.mapError, ok_bind]

/-- An answer that is not the terminal error is to the declined frame, to the decline
said again, or to a frame without an encoding after the claimant's own decline. -/
theorem answers_iff {calls : List Operation} (hsound : Sound s₀ [] s₀) (op : Operation)
    (hover : (Runs.after step s₀ calls).terminal.isSome) :
    Answers s₀ calls op ↔ Encodable op (Runs.after step s₀ calls) := by
  have h := run_sound hsound calls
  obtain ⟨reason, hreason⟩ := Option.isSome_iff_exists.mp hover
  constructor
  · rintro hanswer frame rfl hdeclined hside
    by_contra hnone
    have hdigest : (channelFrameDigest frame).toOption = none := by
      rcases hd : channelFrameDigest frame with _ | digest
      · rfl
      · simp only [channelFrameDigest, orRecognition, except_bind_eq_ok, mapError_eq_ok] at hd
        obtain ⟨encoded, hencoded, -⟩ := hd
        exact absurd ⟨encoded, hencoded⟩ hnone
    have hreplay : (Runs.after step s₀ calls).terminalReplayFrameDigest = none := by
      obtain ⟨-, hreplay, -⟩ | ⟨hallocator, -⟩ := h.declined hdeclined
      · exact hreplay
      · cases hside.symm.trans hallocator
    have hok : run (.receiveFrame frame) (Runs.after step s₀ calls) =
        .ok (.effects []) (Runs.after step s₀ calls) := by
      simp only [run, Functor.map, EStateM.map, receiveFrame_over frame hdeclined]
      rw [if_pos ⟨trivial, hreplay.trans hdigest.symm⟩]
    obtain herror | ⟨-, ⟨_, declined, -, hby, -⟩ | ⟨hop, -⟩⟩ := hanswer
    · rw [hok] at herror
      cases herror
    · cases (h.side.symm.trans hside).symm.trans (hby.allocator hsound)
    · cases hop
  · intro hencodable
    obtain herror | ⟨rfl, hok, hwhy⟩ := run_over op hreason
    · exact .inl (by rw [herror]; rfl)
    refine .inr ⟨by rw [hok]; rfl, ?_⟩
    obtain ⟨hside, hreplay, hby⟩ | ⟨hside, hcommitted, declined, digest, hdigest, hreplay, hby⟩ :=
      h.declined hreason
    · obtain ⟨frame, rfl, hframe⟩ | ⟨rfl, -⟩ := hwhy
      · obtain ⟨encoded, hencoded⟩ := hencodable frame rfl hreason hside
        have hnone := hreplay.symm.trans hframe
        rw [digest_isOk hencoded] at hnone
        cases hnone
      · exact .inr ⟨rfl, hby⟩
    · obtain ⟨frame, rfl, hframe⟩ | ⟨rfl, hlocal⟩ := hwhy
      · refine .inl ⟨frame, declined, rfl, hby, sameFrame_of_digest ?_ hdigest⟩
        exact toOption_eq_some.mp (hframe.symm.trans hreplay)
      · cases hcommitted.symm.trans hlocal

end EndpointReducer
end Pairing
end CbclPairing

/-! ### A claimant that declines -/

namespace CbclPairing
namespace Pairing
open Codec Calls Wire

namespace Sample

attribute [local instance] Primitives.transparent

def allocatorKey : CeremonySigningKey := ⟨fill 32 (List.replicate 32 0x11)⟩
def claimantKey : CeremonySigningKey := ⟨fill 32 (List.replicate 32 0x22)⟩

def isRootOrigin (_ : Bytes) : Bool := true

theorem validUtf8_applicationId : Cbor.validUtf8 (ascii "example.test/synthetic/v1") = true := by
  decide

def invitationValue : Invitation where
  application := ⟨ascii "example.test/synthetic/v1", validUtf8_applicationId⟩
  relayOrigin := ⟨ascii "https://relay.example.test", by decide⟩
  locator := .direct (fill 32 [0x55])
  secret := List.replicate 16 0x31
  expectedAllocatorKey := some (sha256 allocatorKey.secret.val)
  expectedClaimantKey := none

def invitation : Bytes := value (encodeInvitation isRootOrigin invitationValue) (by decide +kernel)

/-- One side's pending channel; the shared secret and the three frames stand in for
those of a CPace exchange. -/
def pending (side : Side) : PendingChannel := .new side (fill 64 [3]) [4] [5] [6]

def intent : PairingIntent where
  application := invitationValue.application
  action := ⟨ascii "grant", by decide⟩
  allocatorClaim := [7]
  claimantClaim := [8]
  authoritySummary := ⟨ascii "a synthetic grant", by decide⟩
  intentNonce := fill 32 [9]

def intentBody : Bytes := value (encodePairingIntent intent) (by decide +kernel)

def decisionBody : Bytes :=
  value (encodePairingDecision ⟨sha256 intentBody, .decline⟩) (by decide +kernel)

section Messages

@[reducible, local instance]
def printer : Cbcl := .transparent []

def contentHash (m : Message) : Bytes := sha256Prefix ++ sha256Hex m.expr.text

/-- A signed control over a body. -/
def bound (key : CeremonySigningKey) (performative : Bytes) (recipient : Option CeremonyKeyId)
    (body : Bytes) (causedBy : CausedBy) : Message :=
  key.signMessage (.simple
    { performative := ⟨false, performative⟩
      recipient := recipient.map fun r => [r.text]
      content := .atom (.str (ceremonyId invitation))
      params := [.atom (.str (sha256Prefix ++ sha256Hex body)), .atom (.num body.length)]
      thread := some (ceremonyId invitation)
      sender := none
      causedBy := some causedBy })

def cpaceA : Message := bound allocatorKey (ascii "cpace-a") none [5] .begin
def cpaceB : Message := bound claimantKey (ascii "cpace-b") none [6] .begin

def finishedA : Message :=
  bound allocatorKey (ascii "finished-a") none (pending .allocator).localFinished.val
    (canonicalCausedBy (.multiple [contentHash cpaceA, contentHash cpaceB]))

def finishedB : Message :=
  bound claimantKey (ascii "finished-b") none (pending .claimant).localFinished.val
    (canonicalCausedBy (.multiple [contentHash cpaceA, contentHash cpaceB]))

def opener : Message :=
  .wrapped .withRoles (exactOpenerParams allocatorKey.keyId claimantKey.keyId)
    (allocatorKey.signMessage (.simple
      { performative := ⟨true, ascii "hello"⟩
        recipient := none
        content := .list []
        params := []
        thread := some (ceremonyId invitation)
        sender := none
        causedBy := some .begin }))

def intentControl : Message :=
  bound allocatorKey (ascii "pairing-intent") (some claimantKey.keyId) intentBody
    (.single (contentHash opener))

def declineControl : Message :=
  bound claimantKey (ascii "pairing-decline") (some allocatorKey.keyId) decisionBody
    (.single (contentHash intentControl))

end Messages

@[reducible] def engine : Cbcl :=
  .transparent [cpaceA, cpaceB, finishedA, finishedB, opener, intentControl, declineControl]

attribute [local instance] engine

/-- A profile without state that shows every intent and grants every payload. -/
instance : ApplicationProfile Unit where
  recogniseInvitation _ _ := .ok ()
  recogniseIntent intent := pure
    (⟨intent.application.val, intent.action.val, intent.authoritySummary.val, []⟩, ⟨fill 32 []⟩)
  recognisePayload _ _ payload := .ok ⟨[], payload.payloadType.val, payload.body⟩
  authorizePayload payload := pure ⟨payload.application, payload.payloadType, payload.body⟩

def shown : DisplayIntent :=
  ⟨intent.application.val, intent.action.val, intent.authoritySummary.val, []⟩

def record : InvitationRecord :=
  Call.after (InvitationRecord.bind (fill 32 [0x55]) [5] [4] (.new invitation))

def monitor : BootstrapMonitor :=
  value (BootstrapMonitor.new invitation) (by decide +kernel)

def claimant : EndpointReducer Unit :=
  value (EndpointReducer.new isRootOrigin .claimant invitation record claimantKey monitor
    (pending .claimant) (contentHash cpaceA) (contentHash cpaceB) ()) (by decide +kernel)

theorem new_claimant : EndpointReducer.new isRootOrigin .claimant invitation record claimantKey
    monitor (pending .claimant) (contentHash cpaceA) (contentHash cpaceB) () = .ok claimant :=
  eq_ok_value _ _

/-- The allocator's frame around a control. -/
def sealedFrame (counter : UInt64) (control : Message) (body : Option Bytes) : ChannelFrame :=
  match encodeSealedPlaintext ⟨control.expr.text, body⟩ with
  | .ok plaintext => .sealed .allocatorToClaimant counter (plaintext ++ List.replicate 16 0)
  | .error _ => .sealed .allocatorToClaimant counter []

/-- Both CPace controls, both Finished controls, and the opener. -/
def opening : List EndpointReducer.Operation :=
  [.admitBootstrapControl .cpaceA cpaceA.expr.text [5],
    .admitBootstrapControl .cpaceB cpaceB.expr.text [6],
    .localFinishedFrame,
    .receiveFrame (.finished .allocator finishedA.expr.text (pending .allocator).localFinished),
    .receiveFrame (sealedFrame 0 opener none)]

def receivesIntent : EndpointReducer.Operation :=
  .receiveFrame (sealedFrame 1 intentControl (some intentBody))

def declining : List EndpointReducer.Operation := opening ++ [receivesIntent, .decide .decline]

/-- A sealed frame needs a ciphertext of seventeen octets. -/
def unencodable : ChannelFrame := .sealed .allocatorToClaimant 2 []

end Sample

namespace EndpointReducer

attribute [local instance] Primitives.transparent Sample.engine

end EndpointReducer
end Pairing
end CbclPairing
