import CbclPairing.CredentialV2.ClaimantFailures
import CbclPairing.CredentialV2.Inspection
import CbclPairing.CredentialV2.Releases
import CbclPairing.CredentialV2.Transfer

/-! What a terminated session still answers. A claimant refuses every call; an allocator
gives nothing away but the opening of a restored session that was never welcomed. -/
namespace CbclPairing
namespace CredentialV2
open Codec Codec.Cbor Calls

/-- Everything an allocator session can be asked: its calls and its exports. -/
inductive AllocatorRequest where
  | call (c : AllocatorCall)
  | presenceCode
  | handoffText
  | manualTransferText (wordList : Fin 2048 → Bytes)

/-- What leaves an allocator session. -/
inductive AllocatorOutput where
  | effect (e : AllocatorEffect)
  | text (bytes : Bytes)

variable [Primitives] {V : Type}

namespace AllocatorSession

section Request

variable [BodyVerifier V]

def request : AllocatorRequest → Call Error (AllocatorSession V) (List AllocatorOutput)
  | .call c => do
    let effects ← call c
    pure (effects.map .effect)
  | .presenceCode => do
    let s ← get
    pure (s.presenceCode.toList.map .text)
  | .handoffText => do
    let s ← get
    let text ← Call.ofExcept s.handoffText
    pure (text.toList.map .text)
  | .manualTransferText wordList => do
    let s ← get
    let texts ← Call.ofExcept (s.manualTransferText wordList)
    pure (texts.toList.flatMap fun texts => [.text texts.1, .text texts.2])

end Request

/-! ### The gate of a session in a run -/

/-- Nothing waits without a gate, and a terminated session has none. -/
structure Orderly (s : AllocatorSession V) : Prop where
  empty : s.persistenceGate = none → s.afterPersist = []
  ended : s.state = .terminal → s.persistenceGate = none

variable {s s' : AllocatorSession V}

theorem Idle.orderly (h : s.Idle) : s.Orderly := ⟨fun _ => h.empty, fun _ => h.ungated⟩

variable [BodyVerifier V]

theorem Begins.idle (h : s.Begins) : s.Idle := by
  cases h with
  | new h =>
    unfold AllocatorSession.new at h
    rw [Calls.guard_eq_ok, Calls.guard_eq_ok, Calls.except_bind_eq_ok] at h
    obtain ⟨-, -, template, -, h⟩ := h
    obtain rfl := Except.ok.inj h
    exact ⟨rfl, rfl⟩
  | restored h =>
    unfold restore at h
    split at h
    · obtain ⟨-, h⟩ := Calls.guard_eq_ok.mp h
      obtain rfl := Except.ok.inj h
      exact ⟨rfl, rfl⟩
    · obtain ⟨e, -, h⟩ := Calls.except_bind_eq_ok.mp h
      obtain rfl := Except.ok.inj h
      exact ⟨rfl, rfl⟩

omit [BodyVerifier V] in
theorem Direct.idle {effects : List AllocatorEffect} (h : Direct s effects s') (hs : s.Idle) :
    s'.Idle := by
  cases h with
  | closed => exact ⟨hs.ungated, rfl⟩
  | _ => exact ⟨hs.ungated, hs.empty⟩

theorem Succeeded.orderly {c : AllocatorCall} {effects : List AllocatorEffect}
    (h : Succeeded c s effects s') (hs : s.Orderly) : s'.Orderly := by
  cases h with
  | bound _ _ _ hs' => exact hs' ▸ hs
  | persisted _ _ _ hs' => exact hs' ▸ Idle.orderly ⟨rfl, rfl⟩
  | applied _ hgate houtcome =>
    cases houtcome with
    | direct hdirect => exact (hdirect.idle ⟨hgate, hs.empty hgate⟩).orderly
    | moved _ hsealed =>
      obtain ⟨generation, checkpoint, carrier, state', hseals, -, rfl⟩ := hsealed
      refine ⟨fun hnone => (by cases hnone), fun hterminal => ?_⟩
      obtain ⟨b, rfl⟩ | ⟨e, rfl⟩ := hseals.shape
      · cases hterminal
      · cases hterminal

theorem call_orderly (c : AllocatorCall) (hs : s.Orderly) : (Call.after (call c s)).Orderly := by
  cases hcall : call c s with
  | ok effects s' => exact (call_ok hcall).orderly hs
  | error e s' =>
    cases hgate : s.persistenceGate with
    | none =>
      obtain rfl | ⟨-, hungated, hempty⟩ := call_error_idle ⟨hgate, hs.empty hgate⟩ hcall
      · exact hs
      · exact Idle.orderly ⟨hungated, hempty⟩
    | some generation =>
      have hc : c ≠ .checkpointPersisted generation := by
        rintro rfl
        rw [call, checkpointPersisted, Call.run_bind (Call.run_get s), if_neg (by simp [hgate])]
          at hcall
        cases hcall
      obtain ⟨e', hgated⟩ := gated_call hgate hc
      obtain ⟨-, rfl⟩ := EStateM.Result.error.inj (hcall.symm.trans hgated)
      exact hs

/-! ### A terminated session -/

omit [BodyVerifier V] in
/-- The one call that a terminated session answers: a restored session that was never
welcomed still opens. -/
def Reopens (r : AllocatorRequest) (s : AllocatorSession V) : Prop :=
  r = .call .start ∧ s.state = .terminal ∧ s.resumeAfterWelcome = true

omit [BodyVerifier V] in
theorem reopenEffects_terminal (h : s.state = .terminal) : s.reopenEffects = .error .phase := by
  unfold reopenEffects
  rw [h]
  rfl

omit [BodyVerifier V] in
theorem Direct.terminal {effects : List AllocatorEffect} (h : Direct s effects s')
    (hs : s.state = .terminal) : s'.state = .terminal ∧ ∀ effect ∈ effects, effect = .terminal := by
  cases h with
  | silent => exact ⟨hs, (by intros; contradiction)⟩
  | reopened _ heffects =>
    rw [reopenEffects_terminal hs] at heffects
    cases heffects
  | requested hstate => cases hs.symm.trans hstate
  | repeated hstate => cases hs.symm.trans hstate
  | closed => exact ⟨rfl, fun effect heffect => List.mem_singleton.mp heffect⟩

theorem Transition.not_terminal {s₁ : AllocatorSession V} {cause : Cause}
    {after : List AllocatorEffect} (h : Transition s cause s₁ after) : s.state ≠ .terminal := by
  intro hs
  cases h with
  | allocation hstate => cases hs.symm.trans hstate
  | shared hstate => cases hs.symm.trans hstate
  | shareAcknowledged hstate => cases hs.symm.trans hstate
  | finishedAcknowledged hstate => cases hs.symm.trans hstate
  | peerFinished hstate => cases hs.symm.trans hstate
  | established hstate => cases hs.symm.trans hstate
  | sent hstate => cases hs.symm.trans hstate
  | received hstate => cases hs.symm.trans hstate
  | acknowledged hstate => cases hs.symm.trans hstate

theorem start_terminal (hterminal : s.state = .terminal) (hgate : s.persistenceGate = none) :
    call .start s = if s.resumeAfterWelcome then .ok [.send .bind] s else .error .phase s := by
  have hbind : relayMessage .bind = .ok .bind := relayMessage_eq_ok.mpr ⟨rfl, rfl⟩
  have hstart : s.start = if s.resumeAfterWelcome then .ok .bind else .error .phase := by
    unfold start
    rw [hterminal, hgate, hbind]
    cases s.resumeAfterWelcome <;> rfl
  rw [call, Call.run_bind (Call.run_get s), hstart]
  cases s.resumeAfterWelcome <;> rfl

theorem call_terminal (c : AllocatorCall) (hs : s.Orderly) (hterminal : s.state = .terminal) :
    (Call.after (call c s)).state = .terminal ∧
      ((∀ effect ∈ Runs.effects (call c s), effect = .terminal) ↔ ¬Reopens (.call c) s) := by
  have hgate := hs.ended hterminal
  by_cases hstart : c = .start
  · subst hstart
    rw [start_terminal hterminal hgate]
    unfold Reopens
    cases hresume : s.resumeAfterWelcome
    · exact ⟨hterminal, by simp⟩
    · exact ⟨hterminal, by simp [hterminal]⟩
  have hreopens : ¬Reopens (.call c) s := fun h => hstart (AllocatorRequest.call.inj h.1)
  rw [iff_true_right hreopens]
  cases hcall : call c s with
  | ok effects s' =>
    rw [Call.after_ok, Runs.effects_ok]
    cases call_ok hcall with
    | bound hc => exact absurd hc hstart
    | persisted _ hgated => cases hgate.symm.trans hgated
    | applied _ _ houtcome =>
      cases houtcome with
      | direct hdirect => exact hdirect.terminal hterminal
      | moved htransition => exact absurd hterminal htransition.not_terminal
  | error e s' =>
    refine ⟨?_, (by intros; contradiction)⟩
    obtain rfl | ⟨s'', rfl⟩ := call_error hcall
    · exact hterminal
    · rfl

/-- A terminated session stays terminated, and all it ever answers is the opening. -/
theorem request_terminal (r : AllocatorRequest) (hs : s.Orderly) (hterminal : s.state = .terminal) :
    (Call.after (request r s)).state = .terminal ∧
      ((∀ output ∈ Runs.effects (request r s), output = .effect .terminal) ↔ ¬Reopens r s) := by
  cases r with
  | call c =>
    obtain ⟨hstate, hquiet⟩ := call_terminal c hs hterminal
    rw [← hquiet]
    simp only [request]
    cases hcall : call c s with
    | ok effects s' =>
      rw [hcall] at hstate
      rw [Call.run_bind hcall]
      refine ⟨hstate, ?_⟩
      simp
    | error e s' =>
      rw [hcall] at hstate
      rw [Call.run_bind_error hcall]
      exact ⟨hstate, by simp⟩
  | presenceCode =>
    rw [request, Call.run_bind (Call.run_get s), presenceCode, hterminal]
    exact ⟨hterminal, by simp [Reopens]⟩
  | handoffText =>
    rw [request, Call.run_bind (Call.run_get s), handoffText, hterminal]
    exact ⟨hterminal, by simp [Reopens, Call.run_bind (Call.run_ofExcept_ok _ s)]⟩
  | manualTransferText wordList =>
    rw [request, Call.run_bind (Call.run_get s), manualTransferText, hterminal]
    exact ⟨hterminal, by simp [Reopens, Call.run_bind (Call.run_ofExcept_ok _ s)]⟩

theorem request_orderly (r : AllocatorRequest) (hs : s.Orderly) :
    (Call.after (request r s)).Orderly := by
  cases r with
  | call c =>
    have hcall := call_orderly c hs
    rw [request, bind_pure_comp, Call.after_map]
    exact hcall
  | presenceCode => exact hs
  | handoffText =>
    rw [request, Call.run_bind (Call.run_get s), bind_pure_comp, Call.after_map]
    cases s.handoffText <;> exact hs
  | manualTransferText wordList =>
    rw [request, Call.run_bind (Call.run_get s), bind_pure_comp, Call.after_map]
    cases s.manualTransferText wordList <;> exact hs

end AllocatorSession

namespace ClaimantSession

variable [BodyVerifier V] {s : ClaimantSession V}

/-- A terminated claimant refuses every call and stays as it is. -/
theorem call_terminal (key : Octets 32) (c : ClaimantCall) (hs : s.Stage)
    (hphase : s.phase = .terminal) : ∃ e, call key c s = .error e s := by
  have hstarting := hs.starting_of (by simp [hphase]) (by simp [hphase])
  have hgate := hstarting.ungated
  cases c with
  | start =>
    refine ⟨.phase, ?_⟩
    rw [call, Call.run_bind (Call.run_get s), start, if_pos (by simp [hphase])]
    rfl
  | receive input now =>
    refine ⟨.terminal, ?_⟩
    rw [call]
    unfold receive
    rw [Call.run_bind (Call.run_get s), if_neg, if_pos hphase]
    · rfl
    · simp [hgate, hasDurableEndpointPhase, hstarting.endpoint]
  | authoriseAuthenticatedProfile offerVerifier =>
    refine ⟨.phase, ?_⟩
    rw [call, authoriseAuthenticatedProfile, Call.run_bind_error]
    rw [Call.run_bind (Call.run_get s), if_pos (by simp [hphase])]
    rfl
  | prepareApplicationObject object =>
    refine ⟨.phase, ?_⟩
    rw [call, prepareApplicationObject, Call.run_bind (Call.run_get s), if_pos (by simp [hphase])]
    rfl
  | prepareFinalApproval object nonce now =>
    refine ⟨.phase, ?_⟩
    rw [call, prepareFinalApproval, Call.run_bind (Call.run_get s), if_pos (by simp [hphase])]
    rfl
  | checkpointPersisted generation =>
    refine ⟨.counter, ?_⟩
    rw [call, checkpointPersisted, Call.run_bind (Call.run_get s), if_pos (by simp [hgate])]
    rfl
  | resumeCachedFrame =>
    refine ⟨.phase, ?_⟩
    rw [call, Call.run_bind (Call.run_get s), resumeCachedFrame, if_pos (by simp [hphase])]
    rfl
  | preparePayload object nonce now =>
    refine ⟨.phase, ?_⟩
    rw [call, preparePayload, Call.run_bind (Call.run_get s), if_pos (by simp [hphase])]
    rfl
  | receiveDurable input now nonce =>
    refine ⟨.phase, ?_⟩
    rw [call, receiveDurable, Call.run_bind (Call.run_get s), if_pos (by simp [hphase])]
    rfl
  | receiveRecoveredReceipt input =>
    refine ⟨.phase, ?_⟩
    rw [call]
    unfold receiveRecoveredReceipt
    rw [Call.run_bind_error]
    rw [Call.run_bind (Call.run_get s), if_pos (by simp [hphase])]
    rfl
  | authenticateRecoveredReceiptObject object =>
    refine ⟨.phase, ?_⟩
    rw [call, authenticateRecoveredReceiptObject, Call.run_bind_error]
    rw [Call.run_bind (Call.run_get s), if_pos (by simp [hphase])]
    rfl
  | commitRecoveredReceipt receipt =>
    refine ⟨.phase, ?_⟩
    rw [call, commitRecoveredReceipt, Call.run_bind (Call.run_get s), if_pos (by simp [hphase])]
    rfl

end ClaimantSession

/-- In every run of a session, new or restored: a terminated allocator answers nothing
but its own end exactly when nobody reopens it, and a terminated claimant refuses every
call. -/
theorem terminal_sessions_silent {V W : Type} [BodyVerifier V] [BodyVerifier W] :
    (∀ s₀ : AllocatorSession V, s₀.Begins → ∀ requests,
      (Runs.Since AllocatorSession.request (fun s => s.state = .terminal)
          (fun r s => ∀ output ∈ Runs.effects (AllocatorSession.request r s),
            output = .effect .terminal) s₀ requests ↔
        Runs.Along AllocatorSession.request (fun r s => ¬AllocatorSession.Reopens r s) s₀
          requests)) ∧
      ∀ t₀ : ClaimantSession W, t₀.Begins → ∀ acts,
        Runs.Since ClaimantSession.act (fun t => t.phase = .terminal)
          (fun a t => ∃ e, ClaimantSession.act a t = .error e t) t₀ acts := by
  constructor
  · intro s₀ hs₀ requests
    rw [Runs.since_iff (I := AllocatorSession.Orderly)
      AllocatorSession.request (fun r s hs => AllocatorSession.request_orderly r hs)
      (fun r s hs hterminal => (AllocatorSession.request_terminal r hs hterminal).1)
      hs₀.idle.orderly]
    refine Runs.along_congr AllocatorSession.request
      (fun r s hs => AllocatorSession.request_orderly r hs) ?_ hs₀.idle.orderly requests
    intro r s hs
    constructor
    · rintro hquiet ⟨hr, hterminal, hresume⟩
      exact ((AllocatorSession.request_terminal r hs hterminal).2.mp (hquiet hterminal))
        ⟨hr, hterminal, hresume⟩
    · exact fun hreopens hterminal => (AllocatorSession.request_terminal r hs hterminal).2.mpr hreopens
  · intro t₀ ht₀ acts
    have hrefused : ∀ (a : ClaimantAct) (t : ClaimantSession W), t.Stage → t.phase = .terminal →
        ∃ e, ClaimantSession.act a t = .error e t :=
      fun a t ht => ClaimantSession.call_terminal a.1 a.2 ht
    refine (Runs.since_iff ClaimantSession.act ClaimantSession.act_stage ?_ ht₀.stage).mpr
      (Runs.along_kept ClaimantSession.act ClaimantSession.act_stage hrefused ht₀.stage acts)
    intro a t ht hphase
    obtain ⟨e, hcall⟩ := hrefused a t ht hphase
    rw [hcall]
    exact hphase

end CredentialV2

/-! ### A session that ends before it is welcomed -/

namespace CredentialV2
open Codec Calls

attribute [local instance] Primitives.transparent

namespace AllocatorSession

def unwelcomed : AllocatorSession Unit :=
  value (restore Bootstrap.sampleCheckpoint (fill 32 [8]) .sample 1 (fill 32 [7]) 60 .full
    (fill 32 [6]) ()) (by decide +kernel)

theorem begins_unwelcomed : unwelcomed.Begins := .restored (eq_ok_value _ _)

/-- The relay closes the mailbox. -/
def closing : AllocatorRequest := .call (.receive (.ok ⟨.closed .expired, rfl⟩) 60 (fill 12 [2]))

theorem request_closing {s : AllocatorSession Unit} (hgate : s.persistenceGate = none) :
    request closing s = .ok [.effect .terminal] s.terminate := by
  have hreceive : receive (.ok ⟨.closed .expired, rfl⟩) 60 (fill 12 [2]) s =
      .ok [.terminal] s.terminate := by
    unfold receive
    rw [Call.run_bind (Call.run_get s), if_neg (by simp [hgate])]
    rfl
  rw [closing, request, call, Call.run_bind hreceive]
  rfl

theorem closing_reopens {s : AllocatorSession Unit} (hgate : s.persistenceGate = none)
    (hresume : s.resumeAfterWelcome = true) :
    (Call.after (request closing s)).state = .terminal ∧
      ¬Runs.Since request (fun s => s.state = .terminal)
        (fun r s => ∀ output ∈ Runs.effects (request r s), output = .effect .terminal) s
        [closing, .call .start] := by
  have hclosed := request_closing hgate
  have hbind := start_terminal (s := s.terminate) rfl hgate
  rw [show s.terminate.resumeAfterWelcome = true from hresume, if_pos rfl] at hbind
  have hopened : request (.call .start) s.terminate = .ok [.effect (.send .bind)] s.terminate := by
    rw [request, Call.run_bind hbind]
    rfl
  refine ⟨by rw [hclosed]; rfl, fun hquiet => ?_⟩
  have hstart := hquiet [closing] [] (.call .start) [] rfl
  rw [List.append_nil, Runs.after_cons, Runs.after_nil, hclosed, Call.after_ok] at hstart
  have hreturned : ∀ output ∈ Runs.effects (request (.call .start) s.terminate),
      output = .effect .terminal := hstart rfl
  rw [hopened] at hreturned
  cases hreturned _ List.mem_cons_self

/-- Restored, closed, and still asking the relay to bind. -/
theorem unwelcomed_reopens :
    unwelcomed.Begins ∧ (Call.after (request closing unwelcomed)).state = .terminal ∧
      ¬Runs.Since request (fun s => s.state = .terminal)
        (fun r s => ∀ output ∈ Runs.effects (request r s), output = .effect .terminal) unwelcomed
        [closing, .call .start] :=
  ⟨begins_unwelcomed, closing_reopens begins_unwelcomed.idle.ungated (by decide +kernel)⟩

end AllocatorSession

theorem terminal_sessions_silent_sample :
    Runs.Since AllocatorSession.request (fun s => s.state = .terminal)
      (fun r s => ∀ output ∈ Runs.effects (AllocatorSession.request r s),
        output = .effect .terminal) AllocatorSession.unwelcomed [AllocatorSession.closing] ∧
      Runs.Since ClaimantSession.act (fun t => t.phase = .terminal)
        (fun a t => ∃ e, ClaimantSession.act a t = .error e t) ClaimantSession.sample
        [ClaimantSession.lateApproval, ClaimantSession.lateApproval] :=
  have habsorbing := terminal_sessions_silent (V := Unit) (W := Unit)
  ⟨(habsorbing.1 _ AllocatorSession.begins_unwelcomed _).mpr ⟨fun h => (by cases h.1), trivial⟩,
    habsorbing.2 _ ClaimantSession.begins_sample _⟩

end CredentialV2
end CbclPairing
