import CbclPairing.Pairing.Termination

/-! The controls a monitor keeps: each signed by the key of its role, each bound to the
body it came with, in a history that nothing but a valid control extends. -/
namespace CbclPairing
namespace Pairing
open Codec Codec.Cbor Calls Cbcl

/-! ### Controls put before a monitor -/

/-- One control put before a monitor, with the body next to it. -/
structure ControlCall (P : Type) where
  expected : P
  control : Bytes
  adjacentBody : Bytes

section Answers

variable {σ P : Type} (admits : P → Bytes → Bytes → Call ProtocolError σ Admission)

def answer (call : ControlCall P) : Call ProtocolError σ Admission :=
  admits call.expected call.control call.adjacentBody

def controlStep (call : ControlCall P) : Call ProtocolError σ (List Admission) :=
  (fun admission => [admission]) <$> answer admits call

/-- The call is answered Valid. -/
def AnsweredValid (call : ControlCall P) (m : σ) : Prop :=
  ∃ admission, Call.verdict (answer admits call m) = .ok admission ∧ admission.verdict = .valid

variable {admits}

theorem after_controlStep (call : ControlCall P) (m : σ) :
    Call.after (controlStep admits call m) = Call.after (answer admits call m) :=
  Call.after_map _ _ _

theorem answeredValid_of_ok {call : ControlCall P} {m m' : σ} {verified : VerifiedControl}
    (hanswer : answer admits call m = .ok (verified.admission .valid) m') :
    AnsweredValid admits call m :=
  ⟨verified.admission .valid, by rw [hanswer, Call.verdict_ok], rfl⟩

end Answers

/-! ### What a control says -/

theorem signedWrapper_eq_ok {message inner : Message} {key signatureHex : Bytes}
    (h : signedWrapper message = .ok (key, signatureHex, inner)) :
    message = .wrapped .signed [.atom (.symbol key), .atom (.str signatureHex)] inner := by
  unfold signedWrapper at h
  split at h
  · cases h
    rfl
  · cases h

theorem orError_eq_ok {α : Type} {e : ProtocolError} {x : Option α} {a : α}
    (h : orError e x = .ok a) : x = some a := by
  cases x with
  | none => cases h
  | some b => rw [Except.ok.inj h]

theorem eq_withRoles {message signed : Message} {params : List SExpr}
    (hsigned : signedPart true message = .ok signed) (hparams : roleParams message = .ok params) :
    message = .wrapped .withRoles params signed := by
  unfold roleParams at hparams
  split at hparams
  · cases hparams
    cases hsigned
    rfl
  · cases hparams

variable [Cbcl]

theorem parse_eq_ok {value : Bytes} {key : CeremonyKeyId}
    (h : CeremonyKeyId.parse value = .ok key) : key.text = value := by
  unfold CeremonyKeyId.parse at h
  simp only [except_bind_eq_ok] at h
  obtain ⟨_, -, _, -, h⟩ := h
  split_ifs at h
  cases h
  rfl

variable [Primitives]

/-- The message is what this key signed, under its signature. -/
def SignedBy (signed : Message) (key : CeremonyKeyId) : Prop :=
  ∃ signatureHex inner signature bytes,
    signed = .wrapped .signed [.atom (.symbol key.text), .atom (.str signatureHex)] inner ∧
      decodeLowerHex 64 signatureHex = some signature ∧ key.publicKeyBytes = .ok bytes ∧
      verifyStrict bytes (canonicalEncode inner) signature = true

/-- The message is of this performative and thread, and states the digest and the length
of this body. -/
def BindsBody (message : Message) (name ceremony body : Bytes) : Prop :=
  ∃ m, innermostSimple message = some (.simple m) ∧ m.performative.name = name ∧
    m.thread = some ceremony ∧
    m.params = [.atom (.str (sha256Prefix ++ sha256Hex body)), .atom (.num body.length)]

/-- A recognised control is the text of its message, and the signer signed it. -/
theorem recogniseSignedControl_eq_ok {control : Bytes} {requireRoleWrapper : Bool}
    {verified : VerifiedControl}
    (h : recogniseSignedControl control requireRoleWrapper = .ok verified) :
    display verified.message = control ∧ ∃ signed,
      signedPart requireRoleWrapper verified.message = .ok signed ∧
        SignedBy signed verified.signer := by
  unfold recogniseSignedControl at h
  simp only [guard_eq_ok, except_bind_eq_ok] at h
  obtain ⟨-, -, -, message, -, hdisplay, signed, hsigned, ⟨key, signatureHex, inner⟩, hwrapper,
    signer, hsigner, signature, hsignature, bytes, hbytes, -, hverify, hok⟩ := h
  cases hok
  have hwrapper := signedWrapper_eq_ok hwrapper
  have hkey : signer.text = key := parse_eq_ok hsigner
  subst hkey
  exact ⟨not_not.mp hdisplay, signed, hsigned, signatureHex, inner, signature, bytes, hwrapper,
    orError_eq_ok hsignature, hbytes, by simpa using hverify⟩

theorem validateBoundControl_eq_ok {message : Message} {name ceremony body : Bytes}
    (h : validateBoundControl message name ceremony body = .ok ()) :
    BindsBody message name ceremony body := by
  unfold validateBoundControl at h
  simp only [guard_eq_ok, except_bind_eq_ok] at h
  obtain ⟨-, simple, hsimple, h⟩ := h
  have hsimple := orError_eq_ok hsimple
  cases simple with
  | simple m =>
    simp only [guard_eq_ok, except_bind_eq_ok, not_not] at h
    obtain ⟨hname, -, -, hthread, -, h⟩ := h
    split at h
    · rename_i digest bodyLen hparams
      simp only [guard_eq_ok, not_or, not_not] at h
      obtain ⟨-, ⟨rfl, rfl⟩, -⟩ := h
      exact ⟨m, hsimple, hname, hthread, hparams⟩
    · cases h
  | wrapped | other => cases h

/-! ### The history of a monitor -/

/-- A control that was answered Valid, and what was recognised of it. -/
structure Kept (P : Type) where
  call : ControlCall P
  verified : VerifiedControl

/-- The store and its count after one more control. -/
def keepControl (thread : Bytes) (stock : Store × ℕ) (verified : VerifiedControl) : Store × ℕ :=
  let (added, store) := append verified.contentHash thread verified.message stock.1
  (store, if added then stock.2 + 1 else stock.2)

section Histories

variable {σ P : Type} (admits : P → Bytes → Bytes → Call ProtocolError σ Admission)

/-- What the history notes of a call. -/
def note (call : ControlCall P) (m : σ) : Option (Kept P) :=
  match Call.verdict (answer admits call m), recogniseSignedControl call.control false with
  | .ok admission, .ok verified =>
    if admission.verdict = .valid then some ⟨call, verified⟩ else none
  | _, _ => none

/-- The controls of a run that were answered Valid, in order. -/
def history (m : σ) (calls : List (ControlCall P)) : List (Kept P) :=
  Runs.noted (controlStep admits) (note admits) m calls

variable (name : P → Bytes) (thread : σ → Bytes) (stock : σ → Store × ℕ)

/-- How a monitor takes a control: it keeps it with the answer Valid, or nothing changes. -/
def Takes (call : ControlCall P) (m : σ) : Prop :=
  (¬ AnsweredValid admits call m ∧ Call.after (answer admits call m) = m) ∨
    ∃ verified m', answer admits call m = .ok (verified.admission .valid) m' ∧
      recogniseSignedControl call.control false = .ok verified ∧
      validateBoundControl verified.message (name call.expected) (thread m)
        call.adjacentBody = .ok () ∧
      thread m' = thread m ∧ stock m' = keepControl (thread m) (stock m) verified

/-- What the store of a monitor holds after a run. -/
structure Recorded (m₀ : σ) (calls : List (ControlCall P)) (m : σ) : Prop where
  thread_eq : thread m = thread m₀
  stored : stock m = ((history admits m₀ calls).map Kept.verified).foldl
    (keepControl (thread m₀)) (stock m₀)
  signed : ∀ kept ∈ history admits m₀ calls, SignedBy kept.verified.message kept.verified.signer ∧
    display kept.verified.message = kept.call.control
  bound : ∀ kept ∈ history admits m₀ calls,
    BindsBody kept.verified.message (name kept.call.expected) (thread m₀) kept.call.adjacentBody

/-- The store holds the valid controls, and any other call leaves the monitor as it was. -/
structure HistoryLaw (m₀ : σ) (calls : List (ControlCall P)) : Prop where
  recorded : Recorded admits name thread stock m₀ calls (Runs.after (controlStep admits) m₀ calls)
  refused : ∀ before call rest, calls = before ++ call :: rest →
    ¬ AnsweredValid admits call (Runs.after (controlStep admits) m₀ before) →
      Runs.after (controlStep admits) m₀ (before ++ [call]) =
        Runs.after (controlStep admits) m₀ before

variable {admits name thread stock}

theorem note_of_not_valid {call : ControlCall P} {m : σ} (h : ¬ AnsweredValid admits call m) :
    note admits call m = none := by
  unfold note
  split
  · rename_i admission verified hadmission hverified
    exact if_neg fun hvalid => h ⟨admission, hadmission, hvalid⟩
  · rfl

theorem note_of_valid {call : ControlCall P} {m m' : σ} {verified : VerifiedControl}
    (hanswer : answer admits call m = .ok (verified.admission .valid) m')
    (hverified : recogniseSignedControl call.control false = .ok verified) :
    note admits call m = some ⟨call, verified⟩ := by
  simp [note, hanswer, hverified, VerifiedControl.admission]

theorem Recorded.concat (h : ∀ call m, Takes admits name thread stock call m) {m₀ : σ}
    {calls : List (ControlCall P)}
    (hrun : Recorded admits name thread stock m₀ calls (Runs.after (controlStep admits) m₀ calls))
    (call : ControlCall P) : Recorded admits name thread stock m₀ (calls ++ [call])
      (Call.after (controlStep admits call (Runs.after (controlStep admits) m₀ calls))) := by
  have hconcat : history admits m₀ (calls ++ [call]) = history admits m₀ calls ++
      (note admits call (Runs.after (controlStep admits) m₀ calls)).toList :=
    Runs.noted_concat _ _ _ _ _
  rw [after_controlStep]
  obtain ⟨hno, hafter⟩ | ⟨verified, m', hanswer, hverified, hbound, hthread, hstock⟩ :=
    h call (Runs.after (controlStep admits) m₀ calls)
  · rw [note_of_not_valid hno, Option.toList_none, List.append_nil] at hconcat
    rw [hafter]
    exact ⟨hrun.thread_eq, hconcat ▸ hrun.stored, hconcat ▸ hrun.signed, hconcat ▸ hrun.bound⟩
  · rw [note_of_valid hanswer hverified, Option.toList_some] at hconcat
    have hmem : ∀ kept ∈ history admits m₀ (calls ++ [call]),
        kept ∈ history admits m₀ calls ∨ kept = ⟨call, verified⟩ := by
      intro kept hkept
      rwa [hconcat, List.mem_append, List.mem_singleton] at hkept
    rw [hanswer, Call.after_ok]
    constructor
    case thread_eq => exact hthread.trans hrun.thread_eq
    case stored =>
      rw [hconcat, List.map_append, List.foldl_append, ← hrun.stored, hstock, hrun.thread_eq]
      rfl
    case signed =>
      intro kept hkept
      obtain hkept | rfl := hmem kept hkept
      · exact hrun.signed kept hkept
      · obtain ⟨hdisplay, signed, hsigned, hby⟩ := recogniseSignedControl_eq_ok hverified
        cases hsigned
        exact ⟨hby, hdisplay⟩
    case bound =>
      intro kept hkept
      obtain hkept | rfl := hmem kept hkept
      · exact hrun.bound kept hkept
      · rw [← hrun.thread_eq]
        exact validateBoundControl_eq_ok hbound

/-- A monitor that takes its controls so keeps the history law along every run. -/
theorem run_history (h : ∀ call m, Takes admits name thread stock call m) (m₀ : σ)
    (calls : List (ControlCall P)) : HistoryLaw admits name thread stock m₀ calls := by
  constructor
  case recorded =>
    exact Runs.invariant (controlStep admits)
      ⟨rfl, rfl, fun _ hkept => (by cases hkept), fun _ hkept => (by cases hkept)⟩
      (fun _ call ih => ih.concat h call) calls
  case refused =>
    rintro before call rest - hrefused
    rw [Runs.after_concat, after_controlStep]
    obtain ⟨-, hafter⟩ | ⟨verified, m', hanswer, -⟩ :=
      h call (Runs.after (controlStep admits) m₀ before)
    · exact hafter
    · exact absurd (answeredValid_of_ok hanswer) hrefused

end Histories

/-! ### The bootstrap -/

namespace BootstrapMonitor

/-- The monitor after a valid control. -/
def kept (m : BootstrapMonitor) (expected : BootstrapPerformative) (verified : VerifiedControl) :
    BootstrapMonitor :=
  let stock := keepControl m.thread (m.store, m.stored) verified
  { m with
    roleKeys := Function.update m.roleKeys expected.roleIndex (some verified.signer)
    store := stock.1
    stored := stock.2 }

/-- What a valid control went through before it was kept. -/
structure Admitted (m : BootstrapMonitor) (call : ControlCall BootstrapPerformative)
    (verified : VerifiedControl) : Prop where
  recognised : recogniseSignedControl call.control false = .ok verified
  bound : validateBoundControl verified.message call.expected.name m.thread
    call.adjacentBody = .ok ()
  same_key : ∀ key, m.roleKeys call.expected.roleIndex = some key → key = verified.signer
  cpace_first : m.roleKeys call.expected.roleIndex = none → call.expected.isCpace

theorem admitControl_meets (call : ControlCall BootstrapPerformative) (m : BootstrapMonitor) :
    (answer admitControl call).Meets
      (fun admission m' => (admission.verdict ≠ .valid ∧ m' = m) ∨
        ∃ verified, m.Admitted call verified ∧ admission = verified.admission .valid ∧
          m' = m.kept call.expected verified)
      (fun _ m' => m' = m) m := by
  unfold answer admitControl
  simp only [Call.meets_bind, Call.meets_get, Call.meets_ofExcept, Call.meets_orThrow,
    Call.meets_ite, Call.meets_throw, implies_true, and_true, true_and]
  intro verified hverified _ hbound simple _ _ _ hkey protocol _
  have hkey : ∀ key, m.roleKeys call.expected.roleIndex = some key → key = verified.signer := by
    intro key hsome
    simpa [hsome] using hkey
  cases hverdict : verifyCausal call.expected.name (causedBy simple) m.store protocol m.thread with
  | unknown | violation => exact .inl ⟨by simp [VerifiedControl.admission], rfl⟩
  | valid =>
    unfold keep
    simp only [Call.meets_bind, Call.meets_get, Call.meets_ite, Call.meets_throw, Call.meets_set,
      Call.meets_pure, implies_true, true_and]
    intro hcpace
    refine .inr ⟨verified, ⟨hverified, hbound, hkey, fun hnone => ?_⟩, rfl, ?_⟩
    · simpa [hnone] using hcpace
    · have hkeys : (if call.expected.isCpace = true ∧
          (m.roleKeys call.expected.roleIndex).isNone = true then
            Function.update m.roleKeys call.expected.roleIndex (some verified.signer)
          else m.roleKeys) =
          Function.update m.roleKeys call.expected.roleIndex (some verified.signer) := by
        cases hbound : m.roleKeys call.expected.roleIndex with
        | none => simp [hbound] at hcpace ⊢; simp [hcpace]
        | some key =>
          rw [hkey key hbound] at hbound
          simp [← hbound]
      rw [hkeys]
      rfl

/-- Everything a valid control went through; any other answer keeps the monitor. -/
theorem answer_cases (call : ControlCall BootstrapPerformative) (m : BootstrapMonitor) :
    (¬ AnsweredValid admitControl call m ∧ Call.after (answer admitControl call m) = m) ∨
      ∃ verified, m.Admitted call verified ∧ answer admitControl call m =
          .ok (verified.admission .valid) (m.kept call.expected verified) := by
  have hmeets := admitControl_meets call m
  unfold AnsweredValid
  cases hanswer : answer admitControl call m with
  | error e m' =>
    exact .inl ⟨(by rintro ⟨_, hok, _⟩; cases hok), hmeets.error hanswer⟩
  | ok admission m' =>
    obtain ⟨hverdict, hm⟩ | ⟨verified, hadmitted, rfl, rfl⟩ := hmeets.ok hanswer
    · refine .inl ⟨?_, hm⟩
      rintro ⟨admission', hok, hvalid⟩
      cases hok
      exact hverdict hvalid
    · exact .inr ⟨verified, hadmitted, rfl⟩

theorem takes (call : ControlCall BootstrapPerformative) (m : BootstrapMonitor) :
    Takes admitControl BootstrapPerformative.name BootstrapMonitor.thread
      (fun m => (m.store, m.stored)) call m := by
  obtain ⟨hno, hafter⟩ | ⟨verified, hadmitted, hanswer⟩ := answer_cases call m
  · exact .inl ⟨hno, hafter⟩
  · exact .inr ⟨verified, _, hanswer, hadmitted.recognised, hadmitted.bound, rfl, rfl⟩

/-- The role keys of a run: set once, by a valid CPace control of the role that the key
signed, and the signer of everything kept in that role. -/
structure KeyLaw (m₀ : BootstrapMonitor) (calls : List (ControlCall BootstrapPerformative)) :
    Prop where
  fixed : ∀ before rest, calls = before ++ rest → ∀ role key,
    (Runs.after (controlStep admitControl) m₀ before).roleKeys role = some key →
      (Runs.after (controlStep admitControl) m₀ calls).roleKeys role = some key
  set_by_cpace : ∀ before call rest, calls = before ++ call :: rest → ∀ role key,
    (Runs.after (controlStep admitControl) m₀ before).roleKeys role = none →
    (Runs.after (controlStep admitControl) m₀ (before ++ [call])).roleKeys role = some key →
      call.expected.isCpace ∧ call.expected.roleIndex = role ∧ ∃ verified,
        recogniseSignedControl call.control false = .ok verified ∧ verified.signer = key ∧
        SignedBy verified.message key ∧
        Call.verdict (answer admitControl call (Runs.after (controlStep admitControl) m₀ before)) =
          .ok (verified.admission .valid)
  signer : ∀ kept ∈ history admitControl m₀ calls,
    (Runs.after (controlStep admitControl) m₀ calls).roleKeys kept.call.expected.roleIndex =
      some kept.verified.signer

theorem kept_roleKeys {m : BootstrapMonitor} {call : ControlCall BootstrapPerformative}
    {verified : VerifiedControl} (h : m.Admitted call verified) {role : Fin 2}
    {key : CeremonyKeyId} (hkey : m.roleKeys role = some key) :
    (m.kept call.expected verified).roleKeys role = some key := by
  by_cases hrole : role = call.expected.roleIndex
  · subst hrole
    rw [h.same_key key hkey]
    exact Function.update_self _ _ _
  · exact (Function.update_of_ne hrole _ _).trans hkey

theorem step_roleKeys (call : ControlCall BootstrapPerformative) {m : BootstrapMonitor}
    {role : Fin 2} {key : CeremonyKeyId} (hkey : m.roleKeys role = some key) :
    (Call.after (controlStep admitControl call m)).roleKeys role = some key := by
  rw [after_controlStep]
  obtain ⟨-, hafter⟩ | ⟨verified, hadmitted, hanswer⟩ := answer_cases call m
  · rw [hafter]
    exact hkey
  · rw [hanswer]
    exact kept_roleKeys hadmitted hkey

theorem run_roleKeys (calls : List (ControlCall BootstrapPerformative)) {m : BootstrapMonitor}
    {role : Fin 2} {key : CeremonyKeyId} (hkey : m.roleKeys role = some key) :
    (Runs.after (controlStep admitControl) m calls).roleKeys role = some key := by
  induction calls generalizing m with
  | nil => exact hkey
  | cons call calls ih => exact ih (step_roleKeys call hkey)

/-- The call that sets a key is a valid CPace control of that role, signed by that key. -/
theorem step_sets_key {call : ControlCall BootstrapPerformative} {m : BootstrapMonitor}
    {role : Fin 2} {key : CeremonyKeyId} (hnone : m.roleKeys role = none)
    (hkey : (Call.after (controlStep admitControl call m)).roleKeys role = some key) :
    call.expected.isCpace ∧ call.expected.roleIndex = role ∧ ∃ verified,
      recogniseSignedControl call.control false = .ok verified ∧ verified.signer = key ∧
      SignedBy verified.message key ∧
      Call.verdict (answer admitControl call m) = .ok (verified.admission .valid) := by
  rw [after_controlStep] at hkey
  obtain ⟨-, hafter⟩ | ⟨verified, hadmitted, hanswer⟩ := answer_cases call m
  · rw [hafter, hnone] at hkey
    cases hkey
  · have hrole : role = call.expected.roleIndex := by
      by_contra hne
      have hother : (m.kept call.expected verified).roleKeys role = none :=
        (Function.update_of_ne hne _ _).trans hnone
      rw [hanswer, Call.after_ok, hother] at hkey
      cases hkey
    subst hrole
    have hself : (m.kept call.expected verified).roleKeys call.expected.roleIndex =
        some verified.signer := Function.update_self _ _ _
    rw [hanswer, Call.after_ok, hself] at hkey
    obtain rfl := Option.some.inj hkey
    obtain ⟨-, signed, hsigned, hby⟩ := recogniseSignedControl_eq_ok hadmitted.recognised
    cases hsigned
    exact ⟨hadmitted.cpace_first hnone, rfl, verified, hadmitted.recognised, rfl, hby,
      by rw [hanswer, Call.verdict_ok]⟩

theorem run_signer (m₀ : BootstrapMonitor) (calls : List (ControlCall BootstrapPerformative)) :
    ∀ kept ∈ history admitControl m₀ calls,
      (Runs.after (controlStep admitControl) m₀ calls).roleKeys kept.call.expected.roleIndex =
        some kept.verified.signer := by
  refine Runs.invariant (P := fun calls m => ∀ kept ∈ history admitControl m₀ calls,
    m.roleKeys kept.call.expected.roleIndex = some kept.verified.signer)
    (controlStep admitControl) (fun kept hkept => (by cases hkept)) (fun calls call ih => ?_) calls
  intro kept hkept
  have hconcat : history admitControl m₀ (calls ++ [call]) = history admitControl m₀ calls ++
      (note admitControl call (Runs.after (controlStep admitControl) m₀ calls)).toList :=
    Runs.noted_concat _ _ _ _ _
  rw [hconcat, List.mem_append] at hkept
  obtain hkept | hkept := hkept
  · exact step_roleKeys call (ih kept hkept)
  · rw [after_controlStep]
    obtain ⟨hno, -⟩ | ⟨verified, hadmitted, hanswer⟩ :=
      answer_cases call (Runs.after (controlStep admitControl) m₀ calls)
    · rw [note_of_not_valid hno] at hkept
      cases hkept
    · rw [note_of_valid hanswer hadmitted.recognised, Option.toList_some,
        List.mem_singleton] at hkept
      subst hkept
      rw [hanswer]
      exact Function.update_self _ _ _

theorem run_keyLaw (m₀ : BootstrapMonitor) (calls : List (ControlCall BootstrapPerformative)) :
    KeyLaw m₀ calls := by
  constructor
  case fixed =>
    rintro before rest rfl role key hkey
    rw [Runs.after_append]
    exact run_roleKeys rest hkey
  case set_by_cpace =>
    rintro before call rest - role key hnone hkey
    rw [Runs.after_concat] at hkey
    exact step_sets_key hnone hkey
  case signer => exact run_signer m₀ calls

theorem new_eq_ok {invitation : Bytes} {m : BootstrapMonitor} (h : new invitation = .ok m) :
    m.thread = ceremonyId invitation ∧ (m.store, m.stored) = (emptyStore, 0) ∧
      ∀ role, m.roleKeys role = none := by
  unfold new at h
  simp only [except_bind_eq_ok] at h
  obtain ⟨dialects, -, h⟩ := h
  cases h
  exact ⟨rfl, rfl, fun _ => rfl⟩

end BootstrapMonitor

/-! ### The session -/

namespace SessionMonitor

theorem admitControl_meets (call : ControlCall SessionPerformative) (m : SessionMonitor) :
    (answer admitControl call).Meets
      (fun admission m' => (admission.verdict ≠ .valid ∧ m' = m) ∨
        ∃ verified, admission = verified.admission .valid ∧
          recogniseSignedControl call.control false = .ok verified ∧
          validateBoundControl verified.message call.expected.name m.thread
            call.adjacentBody = .ok () ∧
          m' = { m with
            store := (keepControl m.thread (m.store, m.stored) verified).1
            stored := (keepControl m.thread (m.store, m.stored) verified).2 })
      (fun _ m' => m' = m) m := by
  unfold answer admitControl
  simp only [Call.meets_bind, Call.meets_get, Call.meets_ofExcept, Call.meets_orThrow,
    Call.meets_ite, Call.meets_throw, Call.meets_pure, implies_true, and_true, true_and]
  intro verified hverified _ hbound _ simple _
  have hviolation : (verified.admission .violation).verdict ≠ .valid := by
    simp [VerifiedControl.admission]
  refine ⟨fun _ => .inl hviolation, fun _ => ⟨fun _ => .inl hviolation, fun _ => ?_⟩⟩
  cases hverdict : verifyCausalForRole verified.message m.endpoint m.dialects m.cast m.store
    m.thread m.root with
  | unknown => exact .inl ⟨by simp [VerifiedControl.admission], rfl⟩
  | violation => exact .inl ⟨hviolation, rfl⟩
  | valid => exact .inr ⟨verified, rfl, hverified, hbound, rfl⟩

theorem takes (call : ControlCall SessionPerformative) (m : SessionMonitor) :
    Takes admitControl SessionPerformative.name SessionMonitor.thread
      (fun m => (m.store, m.stored)) call m := by
  have hmeets := admitControl_meets call m
  unfold Takes AnsweredValid
  cases hanswer : answer admitControl call m with
  | error e m' => exact .inl ⟨(by rintro ⟨_, hok, _⟩; cases hok), hmeets.error hanswer⟩
  | ok admission m' =>
    obtain ⟨hverdict, hm⟩ | ⟨verified, rfl, hverified, hbound, rfl⟩ := hmeets.ok hanswer
    · refine .inl ⟨?_, hm⟩
      rintro ⟨admission', hok, hvalid⟩
      cases hok
      exact hverdict hvalid
    · exact .inr ⟨verified, _, rfl, hverified, hbound, rfl, rfl⟩

/-- The root and the cast of an opened session stay. -/
theorem run_root_cast (m₀ : SessionMonitor) (calls : List (ControlCall SessionPerformative)) :
    (Runs.after (controlStep admitControl) m₀ calls).root = m₀.root ∧
      (Runs.after (controlStep admitControl) m₀ calls).cast = m₀.cast := by
  refine Runs.invariant (P := fun _ m => m.root = m₀.root ∧ m.cast = m₀.cast)
    (controlStep admitControl) ⟨rfl, rfl⟩ (fun calls call ih => ?_) calls
  rw [after_controlStep]
  refine Call.Meets.after (P := fun m : SessionMonitor => m.root = m₀.root ∧ m.cast = m₀.cast) ?_
  refine (admitControl_meets call _).mono (fun admission m' h => ?_) (fun _ m' h => ?_)
  · obtain ⟨-, rfl⟩ | ⟨verified, -, -, -, rfl⟩ := h
    · exact ih
    · exact ih
  · rw [h]
    exact ih

/-- What an opened session starts from: a root that the allocator signed, around a cast
of exactly the two keys. -/
structure Rooted (ceremony : Bytes) (allocator claimant : CeremonyKeyId) (m : SessionMonitor)
    (root : VerifiedControl) : Prop where
  root_hash : m.root = root.contentHash
  thread : m.thread = ceremony
  signed : ∃ signed, root.message = .wrapped .withRoles (exactOpenerParams allocator claimant) signed ∧
    SignedBy signed allocator
  singleton : singleton m.cast =
    [(ascii "allocator", allocator.text), (ascii "claimant", claimant.text)]
  indexed : indexedIsEmpty m.cast
  pin : dialectPin m.cast = some sessionDialectHash

theorem openForCeremony_eq_ok {ceremony control : Bytes} {localRole : PairingRole}
    {allocator claimant : CeremonyKeyId} {m : SessionMonitor} {admission : Admission}
    (h : openForCeremony ceremony localRole allocator claimant control = .ok (m, admission)) :
    ∃ root, Rooted ceremony allocator claimant m root ∧ display root.message = control ∧
      (m.store, m.stored) = keepControl ceremony (emptyStore, 0) root := by
  unfold openForCeremony at h
  simp only [except_bind_eq_ok, guard_eq_ok] at h
  obtain ⟨_, -, dialects, -, root, hroot, hsigner, _, -, params, hparams, hexact, cast, hcast,
    _, hvalidate, -, -, -, h⟩ := h
  obtain ⟨rfl, -⟩ := Prod.mk.inj (Except.ok.inj h)
  obtain ⟨hdisplay, signed, hsigned, hby⟩ := recogniseSignedControl_eq_ok hroot
  have hmessage := eq_withRoles hsigned hparams
  rw [not_not.mp hexact] at hmessage
  rw [not_not.mp hsigner] at hby
  unfold validateExactCast at hvalidate
  simp only [guard_eq_ok, not_or, not_not] at hvalidate
  obtain ⟨⟨hsingleton, hindexed, hpin⟩, -⟩ := hvalidate
  exact ⟨root, ⟨rfl, rfl, ⟨signed, hmessage, hby⟩, hsingleton, hindexed, hpin⟩, hdisplay, rfl⟩

/-- A session run: a root of the two keys, then the valid controls and nothing else. -/
structure SessionLaw (ceremony : Bytes) (allocator claimant : CeremonyKeyId)
    (m₀ : SessionMonitor) (calls : List (ControlCall SessionPerformative)) : Prop where
  rooted : ∃ root,
    Rooted ceremony allocator claimant (Runs.after (controlStep admitControl) m₀ calls) root ∧
      ((Runs.after (controlStep admitControl) m₀ calls).store,
          (Runs.after (controlStep admitControl) m₀ calls).stored) =
        (root :: (history admitControl m₀ calls).map Kept.verified).foldl (keepControl ceremony)
          (emptyStore, 0)
  history : HistoryLaw admitControl SessionPerformative.name SessionMonitor.thread
    (fun m => (m.store, m.stored)) m₀ calls

theorem run_sessionLaw {ceremony control : Bytes} {localRole : PairingRole}
    {allocator claimant : CeremonyKeyId} {m₀ : SessionMonitor} {admission : Admission}
    (h : openForCeremony ceremony localRole allocator claimant control = .ok (m₀, admission))
    (calls : List (ControlCall SessionPerformative)) :
    SessionLaw ceremony allocator claimant m₀ calls := by
  obtain ⟨root, hrooted, -, hstock⟩ := openForCeremony_eq_ok h
  have hlaw := run_history takes m₀ calls
  obtain ⟨hroot, hcast⟩ := run_root_cast m₀ calls
  refine ⟨⟨root, ?_, ?_⟩, hlaw⟩
  · exact
      { root_hash := hroot.trans hrooted.root_hash
        thread := hlaw.recorded.thread_eq.trans hrooted.thread
        signed := hrooted.signed
        singleton := hcast ▸ hrooted.singleton
        indexed := hcast ▸ hrooted.indexed
        pin := hcast ▸ hrooted.pin }
  · rw [List.foldl_cons, ← hstock, ← hrooted.thread]
    exact hlaw.recorded.stored

end SessionMonitor

/-- What a bootstrap run keeps, from an empty store without role keys. -/
structure BootstrapLaw (invitation : Bytes) (m₀ : BootstrapMonitor)
    (calls : List (ControlCall BootstrapPerformative)) : Prop where
  thread : m₀.thread = ceremonyId invitation
  empty : (m₀.store, m₀.stored) = (emptyStore, 0)
  keyless : ∀ role, m₀.roleKeys role = none
  history : HistoryLaw BootstrapMonitor.admitControl BootstrapPerformative.name
    BootstrapMonitor.thread (fun m => (m.store, m.stored)) m₀ calls
  keys : BootstrapMonitor.KeyLaw m₀ calls

/-- Role keys cannot be swapped, neither while they are bound nor in the opened session. -/
theorem role_keys_fixed {invitation : Bytes} {m₀ : BootstrapMonitor}
    (hnew : BootstrapMonitor.new invitation = .ok m₀)
    (calls : List (ControlCall BootstrapPerformative)) {ceremony control : Bytes}
    {localRole : PairingRole} {allocator claimant : CeremonyKeyId} {s₀ : SessionMonitor}
    {admission : Admission}
    (hopen : SessionMonitor.openForCeremony ceremony localRole allocator claimant control =
      .ok (s₀, admission))
    (controls : List (ControlCall SessionPerformative)) :
    BootstrapLaw invitation m₀ calls ∧
      SessionMonitor.SessionLaw ceremony allocator claimant s₀ controls := by
  obtain ⟨hthread, hempty, hkeyless⟩ := BootstrapMonitor.new_eq_ok hnew
  exact ⟨⟨hthread, hempty, hkeyless, run_history BootstrapMonitor.takes m₀ calls,
    BootstrapMonitor.run_keyLaw m₀ calls⟩, SessionMonitor.run_sessionLaw hopen controls⟩

end Pairing
end CbclPairing

/-! ### One ceremony -/

namespace CbclPairing
namespace Pairing
namespace Sample
open Calls

attribute [local instance] Primitives.transparent engine

def bootstrapControls : List (ControlCall BootstrapPerformative) :=
  [⟨.cpaceA, cpaceA.expr.text, [5]⟩, ⟨.cpaceA, cpaceB.expr.text, [6]⟩,
    ⟨.cpaceB, cpaceB.expr.text, [6]⟩]

def opened : SessionMonitor × Admission :=
  value (SessionMonitor.openForCeremony (ceremonyId invitation) .claimant allocatorKey.keyId
    claimantKey.keyId opener.expr.text) (by decide +kernel)

def sessionControls : List (ControlCall SessionPerformative) :=
  [⟨.intent, intentControl.expr.text, intentBody⟩]

theorem role_keys_fixed_sample :
    BootstrapLaw invitation monitor bootstrapControls ∧
      SessionMonitor.SessionLaw (ceremonyId invitation) allocatorKey.keyId claimantKey.keyId
        opened.1 sessionControls := by
  have hany : ∀ {m : BootstrapMonitor} {s : SessionMonitor × Admission},
      BootstrapMonitor.new invitation = .ok m →
      SessionMonitor.openForCeremony (ceremonyId invitation) .claimant allocatorKey.keyId
        claimantKey.keyId opener.expr.text = .ok s →
      BootstrapLaw invitation m bootstrapControls ∧ SessionMonitor.SessionLaw (ceremonyId invitation)
        allocatorKey.keyId claimantKey.keyId s.1 sessionControls :=
    fun hnew hopen => role_keys_fixed hnew bootstrapControls hopen sessionControls
  exact hany (eq_ok_value _ _) (eq_ok_value _ _)

end Sample
end Pairing
end CbclPairing
