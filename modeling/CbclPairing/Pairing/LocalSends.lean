import CbclPairing.Pairing.RoleKeys
import CbclPairing.Pairing.Termination
import CbclPairing.Wire.Encoded

/-! Local sends of one endpoint: a control is admitted to the session history only
together with the frame that carries it. -/
namespace CbclPairing
namespace Pairing
open Codec Codec.Cbor Calls Wire

/-! ### Sizes of what is sent -/

section Sizes

variable [Cbcl]

theorem encodeControl_bounds {message : Message} {control : Bytes}
    (h : encodeControl message = .ok control) :
    1 ≤ control.length ∧ control.length ≤ maxControlOctets := by
  unfold encodeControl at h
  obtain ⟨hbounds, h⟩ := guard_eq_ok.mp h
  obtain ⟨-, h⟩ := guard_eq_ok.mp h
  cases h
  simp only [not_or, not_lt] at hbounds
  exact ⟨List.length_pos_iff.mpr hbounds.1, hbounds.2.1⟩

theorem buildSessionControl_bounds [Primitives] {key : CeremonySigningKey}
    {performative : SessionPerformative} {ceremony body control : Bytes}
    {recipient : CeremonyKeyId} {causedBy : CausedBy}
    (h : buildSessionControl key performative ceremony recipient body causedBy = .ok control) :
    (1 ≤ control.length ∧ control.length ≤ maxControlOctets) ∧
      body.length ≤ maxAdjacentBodyOctets := by
  simp only [buildSessionControl, buildBoundControl, except_bind_eq_ok] at h
  obtain ⟨-, -, h⟩ := h
  obtain ⟨hbody, h⟩ := guard_eq_ok.mp h
  exact ⟨encodeControl_bounds h, not_lt.mp hbody⟩

omit [Cbcl] in
/-- An encoder that writes a map writes at least its head. -/
theorem encoded_ne_nil {α : Type} {f : Format α} {x : α} {entries : List (String × Value)}
    {b : Bytes} (hvalue : f.value x = map entries) (h : f.encode x = .ok b) : b ≠ [] := by
  obtain ⟨hvec, -⟩ := Format.encode_eq_ok h
  rw [hvalue] at hvec
  rw [← (canonicalVec?_eq_some.mp hvec).2]
  exact map_ne_nil entries

end Sizes

namespace EndpointReducer

variable [Cbcl] [Primitives] {π : Type} {s t : EndpointReducer π}

/-! ### Sealing -/

/-- A control was admitted to the history as valid, and the channel's next frame
carries it with its body. -/
def Sealed (performative : SessionPerformative) (body : Bytes) (s : EndpointReducer π)
    (frame : ChannelFrame) (controlHash : Bytes) (session : SessionMonitor)
    (channel : SecureChannel) : Prop :=
  ∃ control plaintext monitor before admission,
    s.session = some monitor ∧ s.channel = some before ∧
      SessionMonitor.admitControl performative control body monitor = .ok admission session ∧
      admission.verdict = .valid ∧ admission.contentHash = controlHash ∧
      encodeSealedPlaintext ⟨control, some body⟩ = .ok plaintext ∧
      SecureChannel.sealFrame plaintext before = .ok frame channel

/-- The call left the reducer over, or as it was. -/
def Refused (s t : EndpointReducer π) : Prop := t.terminal.isSome = true ∨ t = s

/-- The session monitor changes only when it answers, and its error leaves it alone. -/
theorem admitSession_cases (performative : SessionPerformative) (control body : Bytes)
    (s : EndpointReducer π) :
    (admitSession performative control body).Meets
      (fun verdict t => ∃ monitor session, s.session = some monitor ∧
        t = { s with session := some session } ∧ (∀ admission, verdict = .ok admission →
          SessionMonitor.admitControl performative control body monitor = .ok admission session) ∧
        ∀ error, verdict = .error error → session = monitor)
      (fun _ t => t = s) s := by
  simp only [admitSession, Call.meets_zoom?, Call.meets_attempt]
  refine ⟨fun _ => trivial, fun monitor hmonitor => Call.meets_iff.mpr ⟨?_, ?_⟩⟩
  · intro admission session hadmit
    refine ⟨monitor, session, hmonitor, rfl, ?_, fun _ => (by intros; contradiction)⟩
    rintro _ ⟨⟩
    exact hadmit
  · intro error session hadmit
    have hsame := (SessionMonitor.admitControl_meets ⟨performative, control, body⟩ monitor).error
      hadmit
    exact ⟨monitor, session, hmonitor, rfl, fun _ => (by intros; contradiction), fun _ _ => hsame⟩

/-- A control that is not admitted as valid is not in the history of a live reducer. -/
theorem admitLocalSession_cases (performative : SessionPerformative) (control body : Bytes)
    (s : EndpointReducer π) :
    (admitLocalSession performative control body).Meets
      (fun controlHash t => ∃ monitor session admission, s.session = some monitor ∧
        SessionMonitor.admitControl performative control body monitor = .ok admission session ∧
        admission.verdict = .valid ∧ admission.contentHash = controlHash ∧
        t = { s with session := some session })
      (fun _ t => Refused s t) s := by
  unfold admitLocalSession
  rw [Call.meets_bind]
  refine (admitSession_cases performative control body s).mono ?_ fun _ _ h => .inr h
  rintro verdict _ ⟨monitor, session, hmonitor, rfl, hadmit, hsame⟩
  cases verdict with
  | error error =>
    refine .inr ?_
    rw [hsame error rfl, ← hmonitor]
  | ok admission =>
    dsimp only
    split_ifs with hvalid
    · exact .inl rfl
    · exact ⟨monitor, session, admission, hmonitor, hadmit admission rfl, not_not.mp hvalid, rfl,
        rfl⟩

/-- A control and a body of admissible sizes have a plaintext, so that only the
channel can refuse them, and then the reducer is over. -/
theorem sealControl_cases {control body : Bytes}
    (hcontrol : 1 ≤ control.length ∧ control.length ≤ maxControlOctets)
    (hbody : 1 ≤ body.length ∧ body.length ≤ maxAdjacentBodyOctets)
    (hchannel : s.channel.isSome = true) :
    (sealControl control (some body)).Meets
      (fun frame t => ∃ plaintext before channel, s.channel = some before ∧
        encodeSealedPlaintext ⟨control, some body⟩ = .ok plaintext ∧
        SecureChannel.sealFrame plaintext before = .ok frame channel ∧
        t = { s with channel := some channel })
      (fun _ t => t.terminal.isSome = true) s := by
  have hbounded : SealedPlaintext.Bounded ⟨control, some body⟩ := by
    refine ⟨hcontrol, ?_⟩
    rintro _ ⟨⟩
    exact hbody
  have hencoded := encodeSealedPlaintext_bounded hbounded
  obtain ⟨before, hbefore⟩ := Option.isSome_iff_exists.mp hchannel
  unfold sealControl sealChannel
  simp only [Call.meets_bind, Call.meets_ofExcept, Call.meets_zoom?, Call.meets_attempt]
  refine ⟨fun plaintext hplaintext => ⟨fun hnone => ?_, fun c hc => Call.meets_iff.mpr ⟨?_, ?_⟩⟩,
    fun error herror => ?_⟩
  · cases hbefore.symm.trans hnone
  · intro frame channel hsealed
    exact ⟨plaintext, c, channel, hc, mapError_eq_ok.mp hplaintext, hsealed, rfl⟩
  · intro error channel _
    rfl
  · rw [hencoded] at herror
    cases herror

/-- A session is opened on a channel. -/
def SessionOnChannel (s : EndpointReducer π) : Prop :=
  s.session.isSome = true → s.channel.isSome = true

/-- Admitting a control and sealing it: both happen, or the reducer is over or as it was. -/
theorem admit_seal {key : CeremonySigningKey} {performative : SessionPerformative}
    {ceremony body control : Bytes} {recipient : CeremonyKeyId} {causedBy : CausedBy} {α : Type}
    {f : Bytes → ChannelFrame → Call ReducerError (EndpointReducer π) α}
    {Q : α → EndpointReducer π → Prop} {E : ReducerError → EndpointReducer π → Prop}
    (hbuilt : buildSessionControl key performative ceremony recipient body causedBy = .ok control)
    (hbody : body ≠ []) (hchannel : SessionOnChannel s)
    (hsealed : ∀ controlHash frame session channel,
      Sealed performative body s frame controlHash session channel →
        (f controlHash frame).Meets Q E
          { s with session := some session, channel := some channel })
    (hrefused : ∀ error t, Refused s t → E error t) :
    (admitLocalSession performative control body >>= fun controlHash =>
      sealControl control (some body) >>= f controlHash).Meets Q E s := by
  obtain ⟨hcontrol, hlength⟩ := buildSessionControl_bounds hbuilt
  have hbody := List.length_pos_iff.mpr hbody
  rw [Call.meets_bind]
  refine (admitLocalSession_cases performative control body s).mono ?_ hrefused
  rintro controlHash _ ⟨monitor, session, admission, hmonitor, hadmit, hvalid, hhash, rfl⟩
  have hchannel : ({ s with session := some session } : EndpointReducer π).channel.isSome = true :=
    hchannel (by rw [hmonitor]; rfl)
  rw [Call.meets_bind]
  refine (sealControl_cases hcontrol ⟨hbody, hlength⟩ hchannel).mono ?_
    fun error t hover => hrefused error t (.inl hover)
  rintro frame _ ⟨plaintext, before, channel, hbefore, hencoded, hframe, rfl⟩
  exact hsealed controlHash frame session channel
    ⟨control, plaintext, monitor, before, admission, hmonitor, hbefore, hadmit, hvalid, hhash,
      hencoded, hframe⟩

/-! ### The three sends -/

/-- The intent was sealed and is on record. -/
def IntentSent (intent : PairingIntent) (s : EndpointReducer π) (frame : ChannelFrame)
    (t : EndpointReducer π) : Prop :=
  ∃ body controlHash profile profileBinding session channel,
    encodePairingIntent intent = .ok body ∧
      Sealed .intent body s frame controlHash session channel ∧
      t = { s with
        profile, session := some session, channel := some channel
        intent := some ⟨sha256 body, controlHash, profileBinding⟩ }

/-- A first decision was sealed and is on record, in the reducer or, for a decline that
ends it, as the mark of its own decline. -/
def DecisionSent (decision : Decision) (s : EndpointReducer π) (effects : List EndpointEffect)
    (t : EndpointReducer π) : Prop :=
  ∃ intent body frame controlHash session channel,
    s.decision = none ∧ s.intent = some intent ∧
      encodePairingDecision ⟨intent.digest, decision⟩ = .ok body ∧
      Sealed (decisionPerformative decision) body s frame controlHash session channel ∧
      match decision with
      | .approve => effects = [.sendFrame frame] ∧
        t = { s with
          session := some session, channel := some channel
          decision := some ⟨.approve, controlHash⟩ }
      | .decline => effects = [.sendFrame frame, .closeMailbox] ∧ t.terminal = some .declined ∧
        t.localDeclineCommitted = true

/-- The decision is the one on record, and nothing is sent again. -/
def DecisionRepeated (decision : Decision) (s : EndpointReducer π) (effects : List EndpointEffect)
    (t : EndpointReducer π) : Prop :=
  s.decision.map (·.decision) = some decision ∧ effects = [] ∧ t = s

/-- The payload was sealed, and is marked as sent. -/
def PayloadSent (payload : ApplicationPayload) (s : EndpointReducer π) (frame : ChannelFrame)
    (t : EndpointReducer π) : Prop :=
  ∃ body controlHash session channel,
    encodeApplicationPayload payload = .ok body ∧
      Sealed .payload body s frame controlHash session channel ∧
      t = { s with
        session := some session, channel := some channel, outboundPayloadSent := true }

/-- Every send seals its frame and records it, or ends the reducer, or leaves it as it
was; only the profile an intent is shown to can have changed its own state. -/
structure SendsAtomically [ApplicationProfile π] (s : EndpointReducer π) : Prop where
  intent : ∀ intent, (sendIntent intent).Meets (IntentSent intent s)
    (fun _ t => t.terminal.isSome = true ∨ ∃ profile, t = { s with profile }) s
  decision : ∀ decision, (EndpointReducer.decide decision).Meets
    (fun effects t => DecisionRepeated decision s effects t ∨ DecisionSent decision s effects t)
    (fun _ t => Refused s t) s
  payload : ∀ payload, (sendPayload payload).Meets (PayloadSent payload s)
    (fun _ t => Refused s t) s

/-- Deciding again what is on record sends nothing. -/
theorem decide_repeated {decision : Decision} (hlive : s.terminal = none)
    (hside : s.side = .claimant) (hdecision : s.decision.map (·.decision) = some decision) :
    EndpointReducer.decide decision s = .ok [] s := by
  obtain ⟨existing, hexisting, hsame⟩ := Option.map_eq_some_iff.mp hdecision
  unfold EndpointReducer.decide
  rw [Call.run_bind (Call.run_get s), hlive, if_neg (by decide), if_neg (by rw [hside]; decide),
    hexisting]
  dsimp only
  rw [if_pos hsame, Call.run_pure]

theorem commitDecision_atomic (decision : Decision) {intent : IntentRecord}
    (hintent : s.intent = some intent) (hdecision : s.decision = none)
    (hchannel : SessionOnChannel s) :
    (commitDecision decision intent).Meets (DecisionSent decision s) (fun _ t => Refused s t) s := by
  have hself : Refused s s := .inr rfl
  unfold commitDecision
  simp only [Call.meets_bind, Call.meets_get, Call.meets_ofExcept, Call.meets_orThrow]
  refine ⟨fun body hbody => ⟨fun allocator _ => ⟨fun key _ => ⟨fun control hcontrol => ?_,
    fun _ _ => hself⟩, fun _ => hself⟩, fun _ => hself⟩, fun _ _ => hself⟩
  have hencoded := mapError_eq_ok.mp hbody
  have hne := encoded_ne_nil (f := pairingDecision) rfl hencoded
  simp only [← Call.meets_bind]
  refine admit_seal (mapError_eq_ok.mp hcontrol) hne hchannel ?_ fun _ _ h => h
  intro controlHash frame session channel hsealed
  rw [Call.meets_bind, Call.meets_modify]
  cases decision with
  | approve =>
    exact ⟨intent, body, frame, controlHash, session, channel, hdecision, hintent, hencoded,
      hsealed, rfl, rfl⟩
  | decline =>
    exact ⟨intent, body, frame, controlHash, session, channel, hdecision, hintent, hencoded,
      hsealed, rfl, rfl, rfl⟩

theorem decide_atomic (decision : Decision) (hlive : s.terminal = none)
    (hchannel : SessionOnChannel s) :
    (EndpointReducer.decide decision).Meets
      (fun effects t => DecisionRepeated decision s effects t ∨ DecisionSent decision s effects t)
      (fun _ t => Refused s t) s := by
  unfold EndpointReducer.decide
  simp only [Call.meets_bind, Call.meets_get]
  rw [hlive, if_neg (by decide)]
  simp only [Call.meets_ite, Call.meets_throw]
  refine ⟨fun _ => .inr rfl, fun _ => ?_⟩
  cases hdecision : s.decision with
  | some existing =>
    dsimp only
    split_ifs with hsame
    · refine .inl ⟨?_, rfl, rfl⟩
      rw [hdecision, Option.map_some, hsame]
    · exact .inl rfl
  | none =>
    simp only [Call.meets_bind, Call.meets_orThrow]
    refine ⟨fun intent hintent => ?_, fun _ => .inr rfl⟩
    exact (commitDecision_atomic decision hintent hdecision hchannel).mono (fun _ _ => .inr)
      fun _ _ => id

variable [ApplicationProfile π]

theorem sendIntent_atomic (intent : PairingIntent) (hlive : s.terminal = none)
    (hchannel : SessionOnChannel s) :
    (sendIntent intent).Meets (IntentSent intent s)
      (fun _ t => t.terminal.isSome = true ∨ ∃ profile, t = { s with profile }) s := by
  unfold sendIntent
  rw [meets_ensureLive_bind hlive]
  simp only [Call.meets_bind, Call.meets_get, Call.meets_ite, Call.meets_throw, meets_fail]
  refine ⟨fun _ => .inr ⟨s.profile, rfl⟩, fun _ => ⟨fun _ => .inl rfl, fun _ => ?_⟩⟩
  refine (recogniseIntent_meets intent s).mono ?_ fun _ _ => False.elim
  rintro verdict _ ⟨profile, rfl⟩
  have hself : ∃ profile', ({ s with profile } : EndpointReducer π) =
      { s with profile := profile' } := ⟨profile, rfl⟩
  rcases verdict with _ | ⟨_, profileBinding⟩
  · exact .inr hself
  simp only [Call.meets_bind, Call.meets_ofExcept, Call.meets_orThrow]
  refine ⟨fun body hbody => ⟨fun monitor _ => ⟨fun claimant _ => ⟨fun key _ =>
    ⟨fun control hcontrol => ?_, fun _ _ => .inr hself⟩, fun _ => .inr hself⟩,
    fun _ => .inr hself⟩, fun _ => .inr hself⟩, fun _ _ => .inr hself⟩
  have hencoded := mapError_eq_ok.mp hbody
  have hne := encoded_ne_nil (f := pairingIntent) rfl hencoded
  simp only [← Call.meets_bind]
  refine admit_seal (mapError_eq_ok.mp hcontrol) hne hchannel ?_ ?_
  · intro controlHash frame session channel hsealed
    exact ⟨body, controlHash, profile, profileBinding, session, channel, hencoded, hsealed, rfl⟩
  · rintro error t (hover | rfl)
    · exact .inl hover
    · exact .inr hself

theorem sendPayload_atomic (payload : ApplicationPayload) (hlive : s.terminal = none)
    (hchannel : SessionOnChannel s) :
    (sendPayload payload).Meets (PayloadSent payload s) (fun _ t => Refused s t) s := by
  have hself : Refused s s := .inr rfl
  unfold sendPayload
  rw [meets_ensureLive_bind hlive]
  simp only [Call.meets_bind, Call.meets_get, Call.meets_ite, Call.meets_throw,
    Call.meets_orThrow, Call.meets_ofExcept]
  refine ⟨fun _ => hself, fun _ => ⟨fun intent _ => ⟨fun decision _ => ⟨fun _ => hself, fun _ =>
    ⟨fun _ => hself, fun _ => ⟨fun _ => hself, fun _ => ⟨fun _ _ => ⟨fun body hbody =>
    ⟨fun claimant _ => ⟨fun key _ => ⟨fun control hcontrol => ?_, fun _ _ => hself⟩,
    fun _ => hself⟩, fun _ => hself⟩, fun _ _ => hself⟩, fun _ _ => hself⟩⟩⟩⟩,
    fun _ => hself⟩, fun _ => hself⟩⟩
  have hencoded := mapError_eq_ok.mp hbody
  have hne := encoded_ne_nil (f := applicationPayload) rfl hencoded
  simp only [← Call.meets_bind]
  refine admit_seal (mapError_eq_ok.mp hcontrol) hne hchannel ?_ fun _ _ h => h
  intro controlHash frame session channel hsealed
  exact ⟨body, controlHash, session, channel, hencoded, hsealed, rfl⟩

/-! ### Runs -/

/-- Until it is confirmed the channel waits for the peer under an unspent invitation;
the session comes after the channel. -/
structure Channelled (s : EndpointReducer π) : Prop where
  unspent : s.pendingChannel.isSome = true → s.record.status ≠ .spent
  session : SessionOnChannel s

omit [Primitives] [ApplicationProfile π] in
theorem Erased.channelled (h : Erased s) : Channelled s := by
  refine ⟨fun hpending => ?_, fun hsession => ?_⟩
  · rw [h.pendingChannel] at hpending
    cases hpending
  · rw [h.session] at hsession
    cases hsession

theorem Channelled.lives {op : Operation} (h : Channelled s)
    (hlives : Lives op s (Call.after (step op s))) : Channelled (Call.after (step op s)) := by
  obtain ⟨hpending, hchannel, hrecord⟩ | ⟨_, -, hpending, hchannel, -⟩ := hlives.channel
  · refine ⟨?_, fun hsession => ?_⟩
    · rw [hpending, hrecord]
      exact h.unspent
    · rw [hchannel]
      obtain hsame | ⟨-, pending, hconfirms⟩ | ⟨-, hopen, -⟩ := hlives.session
      · exact h.session (hsame.symm.trans hsession)
      · -- A confirmation spends the invitation, which a waiting channel excludes.
        have hspent := hconfirms.spent
        rw [hrecord] at hspent
        obtain ⟨frame, -, hframe⟩ := hconfirms
        exact absurd hspent (h.unspent (by rw [hframe.pendingChannel]; rfl))
      · exact hopen
  · refine ⟨?_, fun _ => hchannel⟩
    rw [hpending]
    intros
    contradiction

theorem Channelled.step (h : Channelled s) (op : Operation) :
    Channelled (Call.after (EndpointReducer.step op s)) := by
  rcases hterminal : s.terminal with _ | reason
  · cases after_step_live op hterminal with
    | lives hlives => exact h.lives hlives
    | falls hfalls => exact hfalls.erased.channelled
    | declined _ _ herased => exact herased.channelled
  · rw [after_step_over op hterminal]
    exact h

end EndpointReducer
end Pairing
end CbclPairing

/-! ### A claimant that approves -/

namespace CbclPairing
namespace Pairing
open Codec Calls Wire

namespace Sample

attribute [local instance] Primitives.transparent

def approvalBody : Bytes :=
  value (encodePairingDecision ⟨sha256 intentBody, .approve⟩) (by decide +kernel)

section Messages

attribute [local instance] printer

def approveControl : Message :=
  bound claimantKey (ascii "pairing-approve") (some allocatorKey.keyId) approvalBody
    (.single (contentHash intentControl))

end Messages

@[reducible] def approvingEngine : Cbcl :=
  .transparent [cpaceA, cpaceB, finishedA, finishedB, opener, intentControl, approveControl]

attribute [local instance] approvingEngine

def approvingMonitor : BootstrapMonitor :=
  value (BootstrapMonitor.new invitation) (by decide +kernel)

def approver : EndpointReducer Unit :=
  value (EndpointReducer.new isRootOrigin .claimant invitation record claimantKey approvingMonitor
    (pending .claimant) (contentHash cpaceA) (contentHash cpaceB) ()) (by decide +kernel)

theorem new_approver : EndpointReducer.new isRootOrigin .claimant invitation record claimantKey
    approvingMonitor (pending .claimant) (contentHash cpaceA) (contentHash cpaceB) () =
      .ok approver :=
  eq_ok_value _ _

def approving : List EndpointReducer.Operation := opening ++ [receivesIntent, .decide .approve]

theorem approver_decided :
    (Runs.after EndpointReducer.step approver approving).terminal = none ∧
      (Runs.after EndpointReducer.step approver approving).side = .claimant ∧
      (Runs.after EndpointReducer.step approver approving).decision.map (·.decision) =
        some .approve := by
  decide +kernel

end Sample

namespace EndpointReducer

attribute [local instance] Primitives.transparent Sample.approvingEngine

end EndpointReducer
end Pairing
end CbclPairing
