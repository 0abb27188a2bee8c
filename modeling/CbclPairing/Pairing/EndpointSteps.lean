import CbclPairing.Pairing.Endpoint

/-! What each call of the reducer can make of its state: application traffic leaves
the security state alone, and every failure that ends the ceremony erases it. -/
namespace CbclPairing
namespace Pairing
open Codec Codec.Cbor Calls Wire

section Monitors

variable [Cbcl] [Primitives]

namespace BootstrapMonitor

omit [Primitives] in
/-- A Finished control binds no key. -/
theorem keep_finished_meets {expected : BootstrapPerformative}
    (hexpected : expected.isCpace = false) (verified : VerifiedControl) (m : BootstrapMonitor) :
    (keep expected verified).Meets (fun _ m' => m'.roleKeys = m.roleKeys)
      (fun _ m' => m'.roleKeys = m.roleKeys) m := by
  unfold keep
  simp only [Call.meets_bind, Call.meets_get, Call.meets_ite, Call.meets_throw, Call.meets_set,
    hexpected]
  simp

theorem admitControl_finished_meets {expected : BootstrapPerformative}
    (hexpected : expected.isCpace = false) (control body : Bytes) (m : BootstrapMonitor) :
    (admitControl expected control body).Meets (fun _ m' => m'.roleKeys = m.roleKeys)
      (fun _ m' => m'.roleKeys = m.roleKeys) m := by
  unfold admitControl
  simp only [Call.meets_bind, Call.meets_get, Call.meets_ite, Call.meets_throw,
    Call.meets_ofExcept, Call.meets_orThrow, implies_true, and_true, true_and]
  intro verified _ _ _ simple _ _ _ _ protocol _
  split
  · simp only [Call.meets_bind, Call.meets_pure]
    exact keep_finished_meets hexpected verified m
  · exact rfl

end BootstrapMonitor

omit [Cbcl] [Primitives] in
@[simp] theorem finishedPerformative_isCpace (side : Side) :
    (finishedPerformative side).isCpace = false := by
  cases side <;> rfl

end Monitors

namespace EndpointReducer

variable [Cbcl] {π : Type} {s t u : EndpointReducer π}

/-! ### Relations between states -/

/-- What no call changes. -/
structure Kept (s t : EndpointReducer π) : Prop where
  side : t.side = s.side
  application : t.application = s.application
  ceremony : t.ceremony = s.ceremony
  expectedRoleKeys : t.expectedRoleKeys = s.expectedRoleKeys

theorem kept_self (s : EndpointReducer π) : Kept s s := ⟨rfl, rfl, rfl, rfl⟩

theorem Kept.trans (h : Kept s t) (h' : Kept t u) : Kept s u :=
  ⟨h'.side.trans h.side, h'.application.trans h.application, h'.ceremony.trans h.ceremony,
    h'.expectedRoleKeys.trans h.expectedRoleKeys⟩

/-- A reducer that is over holds nothing of the ceremony any more. -/
structure Erased (s : EndpointReducer π) : Prop where
  status : s.record.status = .spent
  ceremonyKey : s.ceremonyKey = none
  pendingChannel : s.pendingChannel = none
  channel : s.channel = none
  bootstrap : s.bootstrap = none
  session : s.session = none
  localFinished : s.localFinished = none
  pendingFinished : s.pendingFinished = none
  pendingApplications : s.pendingApplications = []
  intent : s.intent = none
  decision : s.decision = none
  payloadControlHash : s.payloadControlHash = none

theorem terminate_erased (reason : TerminalReason) (s : EndpointReducer π) :
    Erased (terminate reason s) :=
  ⟨rfl, rfl, rfl, rfl, rfl, rfl, rfl, rfl, rfl, rfl, rfl, rfl⟩

/-- The two marks a decline leaves. -/
structure Unmarked (s t : EndpointReducer π) : Prop where
  localDeclineCommitted : t.localDeclineCommitted = s.localDeclineCommitted
  replay : t.terminalReplayFrameDigest = s.terminalReplayFrameDigest

theorem Unmarked.trans (h : Unmarked s t) (h' : Unmarked t u) : Unmarked s u :=
  ⟨h'.localDeclineCommitted.trans h.localDeclineCommitted, h'.replay.trans h.replay⟩

/-- The reducer is over for another reason than a decline. -/
structure Fallen (s t : EndpointReducer π) : Prop extends Kept s t, Unmarked s t where
  ended : ∃ reason ≠ TerminalReason.declined, t.terminal = some reason
  erased : Erased t

/-- Application controls and local sends leave the security state alone. -/
structure Undisturbed (s t : EndpointReducer π) : Prop extends Kept s t, Unmarked s t where
  record : t.record = s.record
  ceremonyKey : t.ceremonyKey = s.ceremonyKey
  bootstrap : t.bootstrap = s.bootstrap
  pendingChannel : t.pendingChannel = s.pendingChannel
  channel : t.channel.isSome = s.channel.isSome
  session : t.session.isSome = s.session.isSome
  localFinished : t.localFinished = s.localFinished
  pendingFinished : t.pendingFinished = s.pendingFinished
  decision : s.decision.isSome → t.decision.isSome
  terminal : t.terminal = s.terminal

theorem undisturbed_self (s : EndpointReducer π) : Undisturbed s s :=
  { kept_self s with
    localDeclineCommitted := rfl, replay := rfl, record := rfl, ceremonyKey := rfl
    bootstrap := rfl, pendingChannel := rfl, channel := rfl, session := rfl, localFinished := rfl
    pendingFinished := rfl, decision := id, terminal := rfl }

theorem Undisturbed.trans (h : Undisturbed s t) (h' : Undisturbed t u) : Undisturbed s u :=
  { h.toKept.trans h'.toKept, h.toUnmarked.trans h'.toUnmarked with
    record := h'.record.trans h.record
    ceremonyKey := h'.ceremonyKey.trans h.ceremonyKey
    bootstrap := h'.bootstrap.trans h.bootstrap
    pendingChannel := h'.pendingChannel.trans h.pendingChannel
    channel := h'.channel.trans h.channel
    session := h'.session.trans h.session
    localFinished := h'.localFinished.trans h.localFinished
    pendingFinished := h'.pendingFinished.trans h.pendingFinished
    decision := fun hdecision => h'.decision (h.decision hdecision)
    terminal := h'.terminal.trans h.terminal }

theorem Fallen.of_terminate {reason : TerminalReason} (hkept : Kept s t)
    (hunmarked : Unmarked s t) (hreason : reason ≠ .declined) : Fallen s (terminate reason t) :=
  { side := hkept.side, application := hkept.application, ceremony := hkept.ceremony
    expectedRoleKeys := hkept.expectedRoleKeys
    localDeclineCommitted := hunmarked.localDeclineCommitted, replay := hunmarked.replay
    ended := ⟨reason, hreason, rfl⟩, erased := terminate_erased reason t }

theorem Undisturbed.fallen {reason : TerminalReason} (h : Undisturbed s t)
    (hreason : reason ≠ .declined) : Fallen s (terminate reason t) :=
  .of_terminate h.toKept h.toUnmarked hreason

theorem Fallen.after (h : Kept s t) (hmarks : Unmarked s t) (h' : Fallen t u) : Fallen s u :=
  { h.trans h'.toKept, hmarks.trans h'.toUnmarked with ended := h'.ended, erased := h'.erased }

/-- What a refused call leaves behind. -/
def Stays (s t : EndpointReducer π) : Prop := Undisturbed s t ∨ Fallen s t

theorem Undisturbed.stays (h : Undisturbed s t) : Stays s t := .inl h

theorem Undisturbed.then (h : Undisturbed s t) (h' : Stays t u) : Stays s u :=
  h'.imp h.trans (Fallen.after h.toKept h.toUnmarked)

/-- The allocator took a decline. -/
structure Declines (s t : EndpointReducer π) : Prop extends Kept s t, Unmarked s t where
  allocator : s.side = .allocator
  fresh : s.decision = none
  terminal : t.terminal = some .declined
  erased : Erased t

/-! ### Rules for the building blocks -/

variable {α : Type} {Q : α → EndpointReducer π → Prop}
  {E : ReducerError → EndpointReducer π → Prop}

@[simp] theorem meets_fail {reason : TerminalReason} {error : ReducerError} :
    (fail reason error : Call ReducerError (EndpointReducer π) α).Meets Q E s ↔
      E error (terminate reason s) := Iff.rfl

theorem meets_ensureLive {Q : PUnit → EndpointReducer π → Prop} :
    ensureLive.Meets Q E s ↔
      (s.terminal.isSome → E .terminal s) ∧ (s.terminal = none → Q ⟨⟩ s) := by
  unfold ensureLive
  simp only [Call.meets_bind, Call.meets_get, Call.meets_ite, Call.meets_throw, Call.meets_pure,
    Option.not_isSome_iff_eq_none]

/-- A live reducer passes the check. -/
theorem meets_ensureLive_bind (h : s.terminal = none)
    {f : PUnit → Call ReducerError (EndpointReducer π) α} :
    (ensureLive >>= f).Meets Q E s ↔ (f ⟨⟩).Meets Q E s := by
  rw [Call.meets_bind, meets_ensureLive, h]
  simp

variable [Primitives]

/-- Every bound role key has the digest the invitation expects. -/
def Pinned (s : EndpointReducer π) : Prop := ∀ role, s.mismatched role = false

theorem pinned_iff :
    s.Pinned ↔ ¬ (s.mismatched .allocator = true ∨ s.mismatched .claimant = true) := by
  simp only [not_or, Bool.not_eq_true]
  exact ⟨fun h => ⟨h .allocator, h .claimant⟩, fun h role => by cases role <;> simp [h]⟩

theorem meets_validateExpectedRoleKeys {Q : PUnit → EndpointReducer π → Prop} :
    validateExpectedRoleKeys.Meets Q E s ↔
      (¬ s.Pinned → E .protocol (terminate .protocolViolation s)) ∧ (s.Pinned → Q ⟨⟩ s) := by
  unfold validateExpectedRoleKeys
  simp only [Call.meets_bind, Call.meets_get, Call.meets_ite, meets_fail, Call.meets_pure,
    pinned_iff, not_not]

theorem meets_admitBootstrap {performative : BootstrapPerformative} {control body : Bytes}
    {Q : Except ProtocolError Admission → EndpointReducer π → Prop} :
    (admitBootstrap performative control body).Meets Q E s ↔ (s.bootstrap = none → E .phase s) ∧
      ∀ m, s.bootstrap = some m → (BootstrapMonitor.admitControl performative control body).Meets
        (fun admission m' => Q (.ok admission) { s with bootstrap := some m' })
        (fun error m' => Q (.error error) { s with bootstrap := some m' }) m := by
  simp only [admitBootstrap, Call.meets_zoom?, Call.meets_attempt]

/-- The session monitor answers, and stays there. -/
theorem admitSession_meets (performative : SessionPerformative) (control body : Bytes)
    (s : EndpointReducer π) :
    (admitSession performative control body).Meets
      (fun _ t => s.session.isSome ∧ ∃ session, t = { s with session := some session })
      (fun error t => error = .phase ∧ t = s ∧ s.session = none) s := by
  simp only [admitSession, Call.meets_zoom?, Call.meets_attempt]
  refine ⟨fun h => ⟨trivial, trivial, h⟩, fun session hsession => ?_⟩
  rw [hsession]
  exact Call.meets_iff.mpr ⟨fun _ t _ => ⟨rfl, t, rfl⟩, fun _ t _ => ⟨rfl, t, rfl⟩⟩

theorem sealChannel_meets (plaintext : Bytes) (s : EndpointReducer π) :
    (sealChannel plaintext).Meets
      (fun _ t => s.channel.isSome ∧ ∃ channel, t = { s with channel := some channel })
      (fun error t => error = .phase ∧ t = s ∧ s.channel = none) s := by
  simp only [sealChannel, Call.meets_zoom?, Call.meets_attempt]
  refine ⟨fun h => ⟨trivial, trivial, h⟩, fun channel hchannel => ?_⟩
  rw [hchannel]
  exact Call.meets_iff.mpr ⟨fun _ t _ => ⟨rfl, t, rfl⟩, fun _ t _ => ⟨rfl, t, rfl⟩⟩

omit [Primitives] in
theorem undisturbed_session (session : SessionMonitor) (h : s.session.isSome) :
    Undisturbed s { s with session := some session } :=
  { undisturbed_self s with session := h.symm }

omit [Primitives] in
theorem undisturbed_channel (channel : SecureChannel) (h : s.channel.isSome) :
    Undisturbed s { s with channel := some channel } :=
  { undisturbed_self s with channel := h.symm }

theorem sealControl_meets (control : Bytes) (body : Option Bytes) (s : EndpointReducer π) :
    (sealControl control body).Meets (fun _ t => Undisturbed s t) (fun _ t => Stays s t) s := by
  unfold sealControl
  simp only [Call.meets_bind, Call.meets_ofExcept]
  refine ⟨fun plaintext _ => ?_, fun _ _ => (undisturbed_self s).stays⟩
  refine (sealChannel_meets plaintext s).mono ?_ ?_
  · rintro verdict t ⟨hchannel, channel, rfl⟩
    have hundisturbed := undisturbed_channel channel hchannel
    cases verdict with
    | ok frame => exact hundisturbed
    | error e => exact .inr (hundisturbed.fallen (by decide))
  · rintro error t ⟨-, rfl, -⟩
    exact (undisturbed_self t).stays

theorem admitLocalSession_meets (performative : SessionPerformative) (control body : Bytes)
    (s : EndpointReducer π) :
    (admitLocalSession performative control body).Meets
      (fun _ t => s.session.isSome ∧ Undisturbed s t) (fun _ t => Stays s t) s := by
  unfold admitLocalSession
  rw [Call.meets_bind]
  refine (admitSession_meets performative control body s).mono ?_ ?_
  · rintro verdict t ⟨hsession, session, rfl⟩
    have hundisturbed := undisturbed_session session hsession
    cases verdict with
    | error e => exact hundisturbed.stays
    | ok admission =>
      dsimp only
      split_ifs
      · exact .inr (hundisturbed.fallen (by decide))
      · exact ⟨hsession, hundisturbed⟩
  · rintro error t ⟨-, rfl, -⟩
    exact (undisturbed_self t).stays

/-! ### Application controls -/

/-- What a good application control makes of the state: on the allocator's side a
decision is known afterwards, and a decline ends the ceremony. -/
def Applies (s t : EndpointReducer π) : Prop :=
  Undisturbed s t ∧ (s.side = .allocator → t.decision.isSome) ∨ Declines s t

omit [Primitives] in
theorem applyDecision_meets (value : PairingDecision) (controlHash : Bytes)
    (s : EndpointReducer π) :
    (applyDecision value controlHash).Meets
      (fun effects t => Applies s t ∧ (Declines s t → effects = [.closeMailbox]))
      (fun _ t => Stays s t) s := by
  have hself := undisturbed_self s
  unfold applyDecision
  simp only [Call.meets_bind, Call.meets_get, Call.meets_ite, meets_fail, Call.meets_orThrow,
    ne_eq, not_not]
  refine ⟨fun _ => .inr (hself.fallen (by decide)), fun hside =>
    ⟨fun intent _ => ⟨fun _ => .inr (hself.fallen (by decide)), fun _ => ?_⟩,
      fun _ => hself.stays⟩⟩
  cases hdecision : s.decision with
  | some existing =>
    dsimp only
    split_ifs
    · refine ⟨.inl ⟨hself, fun _ => by rw [hdecision]; rfl⟩, ?_⟩
      intro hdeclines
      exact absurd (hdecision ▸ hdeclines.fresh) (by simp)
    · exact .inr (hself.fallen (by decide))
  | none =>
    simp only [Call.meets_bind, Call.meets_modify]
    cases value.decision with
    | approve =>
      refine ⟨.inl ⟨{ hself with decision := fun _ => rfl }, fun _ => rfl⟩, ?_⟩
      intro hdeclines
      exact absurd hdeclines.erased.decision (by simp)
    | decline =>
      refine ⟨.inr ?_, fun _ => rfl⟩
      exact { hself.toKept, hself.toUnmarked with
        allocator := hside, fresh := hdecision, terminal := rfl
        erased := terminate_erased _ _ }

section Profile

variable [ApplicationProfile π]

omit [Primitives] in
theorem recogniseIntent_meets (intent : PairingIntent) (s : EndpointReducer π) :
    (recogniseIntent intent).Meets (fun _ t => ∃ profile, t = { s with profile })
      (fun _ _ => False) s := by
  simp only [recogniseIntent, Call.meets_zoom, Call.meets_attempt]
  exact Call.meets_iff.mpr ⟨fun _ profile _ => ⟨profile, rfl⟩, fun _ profile _ => ⟨profile, rfl⟩⟩

omit [Primitives] in
theorem authorizePayload_meets (payload : RecognisedPayload) (s : EndpointReducer π) :
    (authorizePayload payload).Meets (fun _ t => ∃ profile, t = { s with profile })
      (fun _ _ => False) s := by
  simp only [authorizePayload, Call.meets_zoom, Call.meets_attempt]
  exact Call.meets_iff.mpr ⟨fun _ profile _ => ⟨profile, rfl⟩, fun _ profile _ => ⟨profile, rfl⟩⟩

theorem applyIntent_meets (value : PairingIntent) (controlHash : Bytes) (s : EndpointReducer π) :
    (applyIntent value controlHash).Meets (fun _ t => s.side = .claimant ∧ Undisturbed s t)
      (fun _ t => Stays s t) s := by
  unfold applyIntent
  simp only [Call.meets_bind, Call.meets_get, Call.meets_ite, meets_fail, Call.meets_ofExcept,
    not_or, ne_eq, not_not]
  refine ⟨fun _ => .inr ((undisturbed_self s).fallen (by decide)), fun hcall =>
    ⟨fun encoded _ => ?_, fun _ _ => (undisturbed_self s).stays⟩⟩
  obtain ⟨hside, -⟩ := hcall
  refine (recogniseIntent_meets value s).mono ?_ fun _ _ => False.elim
  rintro verdict t ⟨profile, rfl⟩
  have hself : Undisturbed s { s with profile } := { undisturbed_self s with }
  rcases verdict with _ | ⟨display, profileBinding⟩
  · exact .inr (hself.fallen (by decide))
  dsimp only
  split
  · split_ifs
    · exact ⟨hside, hself⟩
    · exact .inr (hself.fallen (by decide))
  · exact ⟨hside, { hself with }⟩

omit [Primitives] in
theorem applyPayload_meets (value : ApplicationPayload) (controlHash : Bytes)
    (s : EndpointReducer π) :
    (applyPayload value controlHash).Meets (fun _ t => s.side = .claimant ∧ Undisturbed s t)
      (fun _ t => Stays s t) s := by
  have hself := undisturbed_self s
  unfold applyPayload
  simp only [Call.meets_bind, Call.meets_get, Call.meets_ite, meets_fail, Call.meets_orThrow,
    ne_eq, not_not]
  refine ⟨fun _ => .inr (hself.fallen (by decide)), fun hside =>
    ⟨fun intent _ => ⟨fun _ => .inr (hself.fallen (by decide)), fun _ => ?_⟩,
      fun _ => hself.stays⟩⟩
  cases s.payloadControlHash with
  | some existing =>
    dsimp only
    split_ifs
    · exact ⟨hside, hself⟩
    · exact .inr (hself.fallen (by decide))
  | none =>
    dsimp only
    split
    · exact .inr (hself.fallen (by decide))
    simp only [Call.meets_bind, Call.meets_modify]
    refine (authorizePayload_meets _ _).mono ?_ fun _ _ => False.elim
    rintro verdict t ⟨profile, rfl⟩
    have hverified : Undisturbed s
        { s with profileVerifications := s.profileVerifications + 1, profile } :=
      { hself with }
    cases verdict with
    | error e => exact .inr (hverified.fallen (by decide))
    | ok grant => exact ⟨hside, { hverified with }⟩

theorem applyApplication_meets (decoded : DecodedApplication) (controlHash : Bytes)
    (s : EndpointReducer π) :
    (applyApplication decoded controlHash).Meets
      (fun effects t => Applies s t ∧ (Declines s t → effects = [.closeMailbox]))
      (fun _ t => Stays s t) s := by
  have hclaimant : ∀ {t}, s.side = .claimant ∧ Undisturbed s t → ∀ effects : List EndpointEffect,
      Applies s t ∧ (Declines s t → effects = [.closeMailbox]) := by
    rintro t ⟨hside, hundisturbed⟩ effects
    refine ⟨.inl ⟨hundisturbed, fun h => (by cases hside.symm.trans h)⟩, ?_⟩
    intro hdeclines
    cases hside.symm.trans hdeclines.allocator
  cases decoded with
  | intent value =>
    exact (applyIntent_meets value controlHash s).mono (fun effects _ h => hclaimant h effects)
      fun _ _ => id
  | decision value => exact applyDecision_meets value controlHash s
  | payload value =>
    exact (applyPayload_meets value controlHash s).mono (fun effects _ h => hclaimant h effects)
      fun _ _ => id

/-! ### Pending controls -/

/-- Once a decision is known, or on the claimant's side, no pending control can be
taken for a first decline. -/
def Decided (s : EndpointReducer π) : Prop := s.side = .allocator → s.decision.isSome

omit [Primitives] [ApplicationProfile π] in
theorem Decided.undisturbed (h : Decided s) (happlies : Applies s t) : Undisturbed s t := by
  obtain ⟨hundisturbed, -⟩ | hdeclines := happlies
  · exact hundisturbed
  · have hdecision := h hdeclines.allocator
    rw [hdeclines.fresh] at hdecision
    cases hdecision

omit [Primitives] [ApplicationProfile π] in
theorem Decided.kept (h : Decided s) (hundisturbed : Undisturbed s t) : Decided t :=
  fun hside => hundisturbed.decision (h (hundisturbed.side.symm.trans hside))

/-- A pass keeps the security state, by induction on the controls still to retry. -/
theorem retryPass_meets (remaining next : List PendingApplication) (progress : Bool)
    (emitted : List EndpointEffect) (s : EndpointReducer π) (hdecided : Decided s) :
    (retryPass next progress emitted remaining).Meets (fun _ t => Undisturbed s t)
      (fun _ t => Stays s t) s := by
  induction remaining generalizing next progress emitted s with
  | nil => exact undisturbed_self s
  | cons pending remaining ih =>
    rw [retryPass, Call.meets_bind, Call.meets_orThrow]
    refine ⟨fun body _ => ?_, fun _ => (undisturbed_self s).stays⟩
    rw [Call.meets_bind]
    refine (admitSession_meets _ _ _ s).mono ?_ ?_
    · rintro verdict t ⟨hsession, session, rfl⟩
      have hadmitted := undisturbed_session session hsession
      cases verdict with
      | error e => exact hadmitted.stays
      | ok admission =>
        dsimp only
        cases admission.verdict with
        | unknown =>
          exact (ih _ _ _ _ (hdecided.kept hadmitted)).mono (fun _ _ h => hadmitted.trans h)
            fun _ _ h => hadmitted.then h
        | violation =>
          exact .inr (Undisturbed.fallen { hadmitted with } (by decide))
        | valid =>
          dsimp only
          rw [Call.meets_bind]
          refine (applyApplication_meets _ _ _).mono ?_ fun _ _ h => hadmitted.then h
          rintro effects t ⟨happlies, _⟩
          have happlied := hadmitted.trans ((hdecided.kept hadmitted).undisturbed happlies)
          exact (ih _ _ _ _ (hdecided.kept happlied)).mono (fun _ _ h => happlied.trans h)
            fun _ _ h => happlied.then h
    · rintro error t ⟨-, rfl, -⟩
      exact (undisturbed_self t).stays

theorem retryRounds_meets (rounds : ℕ) (remaining : List PendingApplication)
    (emitted : List EndpointEffect) (s : EndpointReducer π) (hdecided : Decided s) :
    (retryRounds rounds remaining emitted).Meets (fun _ t => Undisturbed s t)
      (fun _ t => Stays s t) s := by
  induction rounds generalizing remaining emitted s with
  | zero => exact { undisturbed_self s with }
  | succ rounds ih =>
    rw [retryRounds, Call.meets_bind]
    refine (retryPass_meets remaining [] false emitted s hdecided).mono ?_ fun _ _ => id
    rintro ⟨next, progress, emitted⟩ t hundisturbed
    dsimp only
    split_ifs
    · exact (ih next emitted t (hdecided.kept hundisturbed)).mono
        (fun _ _ h => hundisturbed.trans h) fun _ _ h => hundisturbed.then h
    · exact { hundisturbed with }

theorem retryPending_meets (s : EndpointReducer π) (hdecided : Decided s) :
    retryPending.Meets (fun _ t => Undisturbed s t) (fun _ t => Stays s t) s := by
  have hemptied : Undisturbed s { s with pendingApplications := [] } := { undisturbed_self s with }
  unfold retryPending
  rw [Call.meets_bind, Call.meets_get, Call.meets_bind, Call.meets_set]
  exact (retryRounds_meets _ _ _ _ (hdecided.kept hemptied)).mono
    (fun _ _ h => hemptied.trans h) fun _ _ h => hemptied.then h

/-- With nothing pending a retry does nothing. -/
theorem retryPending_nil (h : s.pendingApplications = []) : retryPending s = .ok [] s := by
  cases s
  subst h
  rfl

/-- A pass leaves no more controls than it was given, and fewer once one was valid. -/
theorem retryPass_length (remaining next : List PendingApplication) (progress : Bool)
    (emitted : List EndpointEffect) (s : EndpointReducer π) :
    (retryPass next progress emitted remaining).Meets
      (fun result _ => result.1.length ≤ next.length + remaining.length ∧
        (progress = false → result.2.1 = true →
          result.1.length < next.length + remaining.length))
      (fun _ _ => True) s := by
  induction remaining generalizing next progress emitted s with
  | nil => exact ⟨le_rfl, fun h h' => absurd (h.symm.trans h') (by decide)⟩
  | cons pending remaining ih =>
    rw [retryPass, Call.meets_bind, Call.meets_orThrow]
    refine ⟨fun body _ => ?_, fun _ => trivial⟩
    rw [Call.meets_bind]
    refine (admitSession_meets _ _ _ s).mono ?_ fun _ _ _ => trivial
    rintro verdict t -
    rcases verdict with _ | admission
    · trivial
    dsimp only
    cases admission.verdict with
    | unknown =>
      refine (ih (next ++ [pending]) progress emitted t).mono ?_ fun _ _ => id
      rintro result _ ⟨h, hfewer⟩
      simp only [List.length_append, List.length_cons, List.length_nil] at h hfewer ⊢
      refine ⟨by omega, fun hprogress hvalid => ?_⟩
      have hlt := hfewer hprogress hvalid
      omega
    | violation => trivial
    | valid =>
      dsimp only
      rw [Call.meets_bind]
      refine (applyApplication_meets _ _ _).mono ?_ fun _ _ _ => trivial
      intro effects t _
      refine (ih next true (emitted ++ effects) t).mono ?_ fun _ _ => id
      rintro result _ ⟨h, -⟩
      rw [List.length_cons]
      exact ⟨by omega, fun _ _ => by omega⟩

/-- More rounds than controls change nothing any more. -/
theorem retryRounds_stable {rounds rounds' : ℕ} {remaining : List PendingApplication}
    (h : remaining.length < rounds) (h' : remaining.length < rounds')
    (emitted : List EndpointEffect) (s : EndpointReducer π) :
    retryRounds rounds remaining emitted s = retryRounds rounds' remaining emitted s := by
  induction rounds generalizing rounds' remaining emitted s with
  | zero => omega
  | succ rounds ih =>
    obtain ⟨rounds', rfl⟩ : ∃ n, rounds' = n + 1 := ⟨rounds' - 1, by omega⟩
    rw [retryRounds, retryRounds]
    cases hpass : retryPass [] false emitted remaining s with
    | error e t => rw [Call.run_bind_error hpass, Call.run_bind_error hpass]
    | ok result t =>
      have hlength := ((retryPass_length remaining [] false emitted s).ok hpass).2 rfl
      rw [Call.run_bind hpass, Call.run_bind hpass]
      obtain ⟨next, progress, emitted⟩ := result
      dsimp only at hlength ⊢
      split_ifs with hprogress
      · have hfewer := hlength hprogress
        rw [List.length_nil] at hfewer
        exact ih (by omega) (by omega) emitted t
      · rfl

theorem admitApplication_meets (plaintext : SealedPlaintext) (decoded : DecodedApplication)
    (s : EndpointReducer π) :
    (admitApplication plaintext decoded).Meets
      (fun effects t => Undisturbed s t ∨ Declines s t ∧ effects = [.closeMailbox])
      (fun _ t => Stays s t) s := by
  unfold admitApplication
  rw [Call.meets_bind, Call.meets_orThrow]
  refine ⟨fun body _ => ?_, fun _ => (undisturbed_self s).stays⟩
  rw [Call.meets_bind]
  refine (admitSession_meets _ _ _ s).mono ?_ ?_
  · rintro verdict t ⟨hsession, session, rfl⟩
    have hadmitted := undisturbed_session session hsession
    rcases verdict with _ | admission
    · exact .inr (hadmitted.fallen (by decide))
    dsimp only
    cases admission.verdict with
    | violation => exact .inr (hadmitted.fallen (by decide))
    | unknown =>
      simp only [Call.meets_bind, Call.meets_get, Call.meets_ite, meets_fail, Call.meets_set,
        Call.meets_pure]
      refine ⟨fun _ => .inl hadmitted, fun _ => ⟨fun _ => ?_, fun _ => .inl { hadmitted with }⟩⟩
      exact .inr (hadmitted.fallen (by decide))
    | valid =>
      simp only [Call.meets_bind]
      refine (applyApplication_meets _ _ _).mono ?_ fun _ _ h => hadmitted.then h
      rintro effects t ⟨⟨hundisturbed, hdecided⟩ | hdeclines, heffects⟩
      · have happlied := hadmitted.trans hundisturbed
        have hdecided : Decided t := fun hside => hdecided (hundisturbed.side.symm.trans hside)
        exact (retryPending_meets t hdecided).mono (fun _ _ h => .inl (happlied.trans h))
          fun _ _ h => happlied.then h
      · refine Call.meets_iff.mpr ⟨?_, ?_⟩
        · intro more u hretry
          rw [retryPending_nil hdeclines.erased.pendingApplications] at hretry
          cases hretry
          refine .inr ⟨?_, by rw [heffects hdeclines]; rfl⟩
          exact { hdeclines with }
        · intro error u hretry
          rw [retryPending_nil hdeclines.erased.pendingApplications] at hretry
          cases hretry
  · rintro error t ⟨-, rfl, -⟩
    exact (undisturbed_self t).stays

end Profile
end EndpointReducer
end Pairing
end CbclPairing
