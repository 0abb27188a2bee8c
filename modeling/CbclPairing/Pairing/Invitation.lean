import CbclPairing.Codec.Deterministic
import CbclPairing.Pairing.Termination
import CbclPairing.Runs

/-! The durable invitation record of version 1: its encoding, and what a run of binds,
spends and restarts keeps of the one attempt an invitation is good for. -/
namespace CbclPairing
namespace Pairing
open Codec Codec.Cbor Calls

/-! ### The stored form -/

/-- `integer_u64` is `Value.asUint`; this is `fixed_value::<32>`. -/
def fixedValue : Value → Except ReducerError (Octets 32)
  | .bytes bytes => (Octets.ofList? 32 bytes).elim (.error .recognition) .ok
  | _ => .error .recognition

namespace InvitationRecord

/-- Consume the invitation before an endpoint reducer was constructed. -/
def consume (r : InvitationRecord) : InvitationRecord := r.spend

def statusNumber : InvitationStatus → ℕ
  | .unused => 0
  | .bound => 1
  | .spent => 2

def bindingValue : Option (Octets 32) → Value
  | none => .null
  | some binding => .bytes binding.val

def value (r : InvitationRecord) : Value :=
  .array [.integer 1, .bytes r.invitationDigest.val, .integer (statusNumber r.status),
    bindingValue r.binding]

/-- The durable, secret-free record in deterministic form. -/
def encode (r : InvitationRecord) : Except ReducerError Bytes :=
  (canonicalVec? r.value).elim (.error .recognition) .ok

def decodeStatus (v : Value) : Except ReducerError InvitationStatus :=
  match v.asUint with
  | some 0 => .ok .unused
  | some 1 => .ok .bound
  | some 2 => .ok .spent
  | _ => .error .recognition

def decodeBinding : Value → Except ReducerError (Option (Octets 32))
  | .null => .ok none
  | v => some <$> fixedValue v

/-- Recognise one exact deterministic record after a restart. -/
def decode (input : Bytes) : Except ReducerError InvitationRecord :=
  match decodeItem maxDepth input with
  | .error _ => .error .recognition
  | .ok (v, _) =>
    if canonicalVec? v ≠ some input then .error .recognition
    else
      match v with
      | .array [version, digest, status, binding] =>
        if version.asUint ≠ some 1 then .error .recognition
        else do
          let invitationDigest ← fixedValue digest
          let status ← decodeStatus status
          let binding ← decodeBinding binding
          if decide (status = .bound) ≠ binding.isSome then .error .recognition
          else .ok ⟨invitationDigest, status, binding⟩
      | _ => .error .recognition

/-- A binding is present exactly in status Bound. -/
def WellFormed (r : InvitationRecord) : Prop := r.binding.isSome ↔ r.status = .bound

theorem fixedValue_eq_ok {v : Value} {x : Octets 32} : fixedValue v = .ok x ↔ v = .bytes x.val := by
  cases v with
  | bytes bytes =>
    unfold fixedValue
    rw [Value.bytes.injEq]
    cases hx : Octets.ofList? 32 bytes with
    | none =>
      have hne : bytes ≠ x.val := fun h => by
        rw [Octets.ofList?_eq_some.mpr h] at hx
        cases hx
      simp [hx, hne]
    | some y =>
      obtain rfl := Octets.ofList?_eq_some.mp hx
      simp [Subtype.ext_iff]
  | integer | text | array | map | tag | bool | null | float => simp [fixedValue]

theorem decodeStatus_eq_ok {v : Value} {status : InvitationStatus}
    (h : decodeStatus v = .ok status) : v = .integer (statusNumber status) := by
  unfold decodeStatus at h
  split at h
  case h_4 => cases h
  all_goals
    rename_i hv
    cases h
    exact asUint_eq_some hv

theorem decodeStatus_statusNumber (status : InvitationStatus) :
    decodeStatus (.integer (statusNumber status)) = .ok status := by
  cases status <;> rfl

theorem decodeBinding_eq_ok {v : Value} {binding : Option (Octets 32)} :
    decodeBinding v = .ok binding ↔ v = bindingValue binding := by
  cases v with
  | null => cases binding <;> simp [decodeBinding, bindingValue]
  | bytes bytes =>
    unfold decodeBinding
    cases binding with
    | none =>
      cases hx : fixedValue (.bytes bytes) <;> simp [hx, bindingValue]
    | some x =>
      have hfixed := fixedValue_eq_ok (v := .bytes bytes) (x := x)
      cases hx : fixedValue (.bytes bytes) with
      | error e => simpa [hx, bindingValue] using hfixed
      | ok y => simpa [hx, bindingValue] using hfixed
  | integer | text | array | map | tag | bool | float =>
    cases binding <;> simp [decodeBinding, fixedValue, bindingValue]

theorem plain_value (r : InvitationRecord) : Plain maxDepth r.value := by
  have hstatus : statusNumber r.status < 2 ^ 64 := by cases r.status <;> decide
  have hbinding : Plain 256 (bindingValue r.binding) := by
    cases r.binding with
    | none => trivial
    | some x => exact plain_bytes x (by decide)
  apply plain_array (d := 256)
  · simp
  · simp only [List.forall_mem_cons, List.not_mem_nil, false_imp_iff, implies_true, and_true]
    exact ⟨plain_nat (n := 1) (by decide), plain_bytes _ (by decide), plain_nat hstatus, hbinding⟩

theorem canonicalVec?_value (r : InvitationRecord) :
    canonicalVec? r.value = some (toCanonicalVec r.value) := by
  have hbinding : encodable (bindingValue r.binding) = true := by
    cases r.binding <;> simp [bindingValue, encodable]
  have hstatus : encodable (.integer (statusNumber r.status)) = true := by
    cases r.status <;> decide
  have hencodable : encodable r.value = true := by
    simp only [encodable, Int.reduceNeg, Int.reducePow, decide_eq_true_eq] at hstatus
    simp [value, encodable, encodableItems, hbinding, hstatus]
  exact canonicalVec?_eq_some.mpr ⟨⟨hencodable, hasDuplicateKey_eq_false (plain_value r)⟩, rfl⟩

theorem encode_eq (r : InvitationRecord) : encode r = .ok (toCanonicalVec r.value) := by
  rw [encode, canonicalVec?_value]
  rfl

theorem canonical_value (r : InvitationRecord) : canonical r.value = r.value := by
  apply canonical_array_eq
  have hbinding : canonical (bindingValue r.binding) = bindingValue r.binding := by
    cases r.binding <;> rfl
  simp only [List.forall_mem_cons, List.not_mem_nil, false_imp_iff, implies_true, and_true, hbinding]
  exact ⟨rfl, rfl, rfl⟩

/-- What a well-formed record is stored as is read back as that record. -/
theorem decode_encode {r : InvitationRecord} (h : r.WellFormed) :
    decode (toCanonicalVec r.value) = .ok r := by
  have hread := decodeItem_encode (plain_canonical (plain_value r)) []
  rw [List.append_nil, ← toCanonicalVec] at hread
  have hbound : ¬ decide (r.status = .bound) ≠ r.binding.isSome := by
    rw [not_not, Bool.eq_iff_iff, decide_eq_true_eq]
    exact h.symm
  have hone : ¬ (Value.integer 1).asUint ≠ some 1 := not_not.mpr rfl
  have hdigest := fixedValue_eq_ok.mpr (rfl : Value.bytes r.invitationDigest.val = _)
  have hbinding := decodeBinding_eq_ok.mpr (rfl : bindingValue r.binding = _)
  unfold decode
  simp only [hread, canonical_value, canonicalVec?_value, ne_eq, not_true_eq_false, if_false]
  simp only [value]
  rw [if_neg hone, hdigest, ok_bind, decodeStatus_statusNumber, ok_bind, hbinding, ok_bind,
    if_neg hbound]

/-- The decoder takes nothing but what the encoder writes for its result. -/
theorem encode_of_decode {input : Bytes} {r : InvitationRecord} (h : decode input = .ok r) :
    encode r = .ok input ∧ r.WellFormed := by
  unfold decode at h
  split at h
  · cases h
  · rename_i v rest hread
    rw [guard_eq_ok, not_not] at h
    obtain ⟨hcanonical, h⟩ := h
    split at h
    · rename_i version digest status binding
      simp only [guard_eq_ok, not_not, except_bind_eq_ok] at h
      obtain ⟨hversion, d, hd, st, hst, b, hb, hbound, hr⟩ := h
      cases hr
      have hvalue : value ⟨d, st, b⟩ = .array [version, digest, status, binding] := by
        rw [asUint_eq_some hversion, fixedValue_eq_ok.mp hd, decodeStatus_eq_ok hst,
          decodeBinding_eq_ok.mp hb]
        rfl
      constructor
      · rw [encode, hvalue, hcanonical]
        rfl
      · rw [WellFormed, ← hbound, decide_eq_true_eq]
    · cases h

theorem wellFormed_spend (r : InvitationRecord) : r.spend.WellFormed := by
  simp [WellFormed, spend]

theorem spent_of_rank {status : InvitationStatus} (h : InvitationStatus.spent.rank ≤ status.rank) :
    status = .spent := by
  cases status with
  | unused | bound => exact absurd h (by decide)
  | spent => rfl

def reload : Call ReducerError InvitationRecord Unit := do
  let r ← get
  let stored ← Call.ofExcept r.encode
  let r ← Call.ofExcept (decode stored)
  set r

theorem reload_eq {r : InvitationRecord} (h : r.WellFormed) : reload r = .ok () r := by
  unfold reload
  rw [Call.run_bind (Call.run_get r), encode_eq, Call.run_bind (Call.run_ofExcept_ok _ r),
    decode_encode h, Call.run_bind (Call.run_ofExcept_ok _ r)]
  rfl

/-! ### Attempts -/

/-- A byte slice: its length fits a machine word. -/
abbrev Slice := {bytes : Bytes // bytes.length < 2 ^ 64}

/-- What an online attempt is bound to: its mailbox, the peer's first frame and the
public context. -/
structure Attempt where
  mailboxId : Octets 32
  peerCpaceFrame : Slice
  publicContext : Slice
  deriving DecidableEq

namespace Attempt

def value (invitationDigest : Octets 32) (a : Attempt) : Value :=
  .array [.text (ascii "blind-pairing-attempt/v1"), .bytes invitationDigest.val,
    .bytes a.mailboxId.val, .bytes a.peerCpaceFrame.val, .bytes a.publicContext.val]

/-- The canonical attempt encoding, which is hashed. -/
def encoding (invitationDigest : Octets 32) (a : Attempt) : Bytes :=
  toCanonicalVec (a.value invitationDigest)

theorem plain_value (d : Octets 32) (a : Attempt) : Plain maxDepth (a.value d) := by
  apply plain_array (d := 256)
  · simp
  · simp only [List.forall_mem_cons, List.not_mem_nil, false_imp_iff, implies_true, and_true]
    exact ⟨⟨by decide, validUtf8_of_isAscii (by decide)⟩, plain_bytes d (by decide),
      plain_bytes a.mailboxId (by decide), a.peerCpaceFrame.property, a.publicContext.property⟩

/-- The three inputs can be told apart by the encoding. -/
theorem encoding_injective (d : Octets 32) : Function.Injective (encoding d) := by
  intro a b h
  have hcanonical : ∀ c : Attempt, canonical (c.value d) = c.value d := by
    intro c
    apply canonical_array_eq
    simp only [List.forall_mem_cons, List.not_mem_nil, false_imp_iff, implies_true, and_true]
    exact ⟨rfl, rfl, rfl, rfl, rfl⟩
  have hvalue := canonical_eq_of_toCanonicalVec_eq (plain_value d a) (plain_value d b) h
  rw [hcanonical, hcanonical] at hvalue
  simp only [value, Value.array.injEq, List.cons.injEq, Value.bytes.injEq, true_and, and_true]
    at hvalue
  obtain ⟨hmailbox, hframe, hcontext⟩ := hvalue
  obtain ⟨mailboxId, peerCpaceFrame, publicContext⟩ := a
  obtain rfl := Subtype.ext hmailbox
  obtain rfl := Subtype.ext hframe
  obtain rfl := Subtype.ext hcontext
  rfl

end Attempt

/-! ### Runs -/

/-- The calls on a record. A restart stores the record and reads it back. -/
inductive RecordCall where
  | bind (attempt : Attempt)
  | consume
  | restart
  deriving DecidableEq

variable [Primitives]

def Attempt.binding (d : Octets 32) (a : Attempt) : Octets 32 :=
  attemptBinding d a.mailboxId a.peerCpaceFrame.val a.publicContext.val

theorem Attempt.binding_eq (d : Octets 32) (a : Attempt) : a.binding d = sha256 (a.encoding d) :=
  rfl

def bindAttempt (a : Attempt) : Call ReducerError InvitationRecord BindOutcome :=
  bind a.mailboxId a.peerCpaceFrame.val a.publicContext.val

def step : RecordCall → Call ReducerError InvitationRecord (List BindOutcome)
  | .bind a => (fun outcome => [outcome]) <$> bindAttempt a
  | .consume => do
    modify consume
    pure []
  | .restart => do
    reload
    pure []

/-- A record as an endpoint gets it: new for an invitation, or read back from storage. -/
def Opened (r : InvitationRecord) : Prop :=
  (∃ invitation, r = new invitation) ∨ ∃ input, decode input = .ok r

/-- A call is a bind of this attempt, and succeeds. -/
def Succeeds (a : Attempt) (call : RecordCall) (r : InvitationRecord) : Prop :=
  call = .bind a ∧ ∃ outcome r', bindAttempt a r = .ok outcome r'

/-- This attempt was bound, or resumed, earlier in the run. -/
def Succeeded (r₀ : InvitationRecord) (calls : List RecordCall) (a : Attempt) : Prop :=
  Runs.Earlier step (fun _ => Succeeds a) r₀ calls

/-- The four ways a bind can go. -/
theorem bindAttempt_cases (a : Attempt) (r : InvitationRecord) :
    r.status = .unused ∧ bindAttempt a r =
        .ok .bound { r with status := .bound, binding := some (a.binding r.invitationDigest) } ∨
      r.status = .bound ∧ r.binding = some (a.binding r.invitationDigest) ∧
        bindAttempt a r = .ok .resumed r ∨
      r.status = .bound ∧ r.binding ≠ some (a.binding r.invitationDigest) ∧
        bindAttempt a r = .error .invitation r.spend ∨
      r.status = .spent ∧ bindAttempt a r = .error .invitation r := by
  unfold bindAttempt bind
  rw [Call.run_bind (Call.run_get r)]
  rcases hstatus : r.status with _ | _ | _
  · exact .inl ⟨rfl, rfl⟩
  · by_cases hbinding : r.binding = some (a.binding r.invitationDigest)
    · refine .inr (.inl ⟨rfl, hbinding, ?_⟩)
      exact congrFun (if_pos hbinding) r
    · refine .inr (.inr (.inl ⟨rfl, hbinding, ?_⟩))
      exact congrFun (if_neg hbinding) r
  · exact .inr (.inr (.inr ⟨rfl, rfl⟩))

theorem succeeds_iff {a : Attempt} {r : InvitationRecord} (hbound : r.status = .bound) :
    Succeeds a (.bind a) r ↔ r.binding = some (a.binding r.invitationDigest) := by
  unfold Succeeds
  obtain ⟨h, -⟩ | ⟨-, hbinding, hrun⟩ | ⟨-, hbinding, hrun⟩ | ⟨h, -⟩ := bindAttempt_cases a r
  · exact absurd (hbound.symm.trans h) (by decide)
  · simp [hbinding, hrun]
  · simp [hbinding, hrun]
  · exact absurd (hbound.symm.trans h) (by decide)

/-- What one call leaves: the record itself, a spent record, or, where an unused record
is bound, the binding of that attempt. -/
theorem step_cases (call : RecordCall) {r : InvitationRecord} (h : r.WellFormed) :
    (Call.after (step call r) = r ∧ ∀ a, Succeeds a call r → r.status = .bound) ∨
      (Call.after (step call r) = r.spend ∧ ∀ a, ¬ Succeeds a call r) ∨
      ∃ a, call = .bind a ∧ r.status = .unused ∧ Succeeds a call r ∧ Call.after (step call r) =
        { r with status := .bound, binding := some (a.binding r.invitationDigest) } := by
  cases call with
  | bind a =>
    have hafter : Call.after (step (.bind a) r) = Call.after (bindAttempt a r) :=
      Call.after_map _ _ _
    have hsame : ∀ b, Succeeds b (.bind a) r → ∃ outcome r', bindAttempt a r = .ok outcome r' := by
      rintro b ⟨hb, hok⟩
      cases hb
      exact hok
    rw [hafter]
    obtain ⟨hstatus, hrun⟩ | ⟨hstatus, -, hrun⟩ | ⟨-, -, hrun⟩ | ⟨-, hrun⟩ := bindAttempt_cases a r
    · exact .inr (.inr ⟨a, rfl, hstatus, ⟨rfl, _, _, hrun⟩, by rw [hrun, Call.after_ok]⟩)
    · exact .inl ⟨by rw [hrun, Call.after_ok], fun _ _ => hstatus⟩
    · refine .inr (.inl ⟨by rw [hrun, Call.after_error], fun b hb => ?_⟩)
      obtain ⟨outcome, r', hok⟩ := hsame b hb
      cases hrun.symm.trans hok
    · refine .inl ⟨by rw [hrun, Call.after_error], fun b hb => ?_⟩
      obtain ⟨outcome, r', hok⟩ := hsame b hb
      cases hrun.symm.trans hok
  | consume => exact .inr (.inl ⟨rfl, fun _ hb => (by cases hb.1)⟩)
  | restart =>
    have hrun : step .restart r = .ok [] r := by
      rw [step, Call.run_bind (reload_eq h)]
      rfl
    exact .inl ⟨by rw [hrun, Call.after_ok], fun _ hb => (by cases hb.1)⟩

theorem step_rank {call : RecordCall} {r : InvitationRecord} (h : r.WellFormed) :
    r.status.rank ≤ (Call.after (step call r)).status.rank := by
  obtain ⟨hafter, -⟩ | ⟨hafter, -⟩ | ⟨a, -, hstatus, -, -⟩ := step_cases call h
  · rw [hafter]
  · rw [hafter]
    cases r.status with
    | unused => exact Nat.zero_le _
    | bound => exact Nat.le_succ 1
    | spent => exact le_rfl
  · rw [hstatus]
    exact Nat.zero_le _

/-! ### What holds along a run -/

/-- The record after a run, and the attempts that succeeded in it. -/
structure Sound (r₀ : InvitationRecord) (calls : List RecordCall) (r : InvitationRecord) : Prop where
  digest : r.invitationDigest = r₀.invitationDigest
  wellFormed : r.WellFormed
  used : ∀ a, Succeeded r₀ calls a → r.status ≠ .unused
  held : ∀ a, Succeeded r₀ calls a → r.status = .bound →
    r.binding = some (a.binding r₀.invitationDigest)
  first : r₀.status = .unused → r.status = .bound → ∃ a, Succeeded r₀ calls a

theorem Sound.concat {r₀ : InvitationRecord} {calls : List RecordCall}
    (h : Sound r₀ calls (Runs.after step r₀ calls)) (call : RecordCall) :
    Sound r₀ (calls ++ [call]) (Call.after (step call (Runs.after step r₀ calls))) := by
  have hsplit : ∀ a, Succeeded r₀ (calls ++ [call]) a ↔
      Succeeded r₀ calls a ∨ Succeeds a call (Runs.after step r₀ calls) :=
    fun a => Runs.earlier_concat_iff _
  obtain ⟨hafter, hok⟩ | ⟨hafter, hno⟩ | ⟨a, rfl, hstatus, hsucceeds, hafter⟩ :=
    step_cases call h.wellFormed
  · rw [hafter]
    refine ⟨h.digest, h.wellFormed, fun a ha => ?_, fun a ha hbound => ?_, fun h₀ hbound => ?_⟩
    · obtain ha | ha := (hsplit a).mp ha
      · exact h.used a ha
      · rw [hok a ha]
        decide
    · obtain ha | ha := (hsplit a).mp ha
      · exact h.held a ha hbound
      · obtain rfl := ha.1
        rw [← h.digest]
        exact (succeeds_iff hbound).mp ha
    · obtain ⟨a, ha⟩ := h.first h₀ hbound
      exact ⟨a, ha.append [call]⟩
  · rw [hafter]
    refine ⟨h.digest, wellFormed_spend _, fun a ha => ?_, fun a ha hbound => ?_,
      fun h₀ hbound => ?_⟩
    · exact fun hunused => (by cases hunused)
    · cases hbound
    · cases hbound
  · rw [hafter]
    refine ⟨h.digest, by simp [WellFormed], fun b hb => ?_, fun b hb hbound => ?_, fun _ _ => ?_⟩
    · exact fun hunused => (by cases hunused)
    · obtain hb | hb := (hsplit b).mp hb
      · exact absurd hstatus (h.used b hb)
      · obtain rfl := RecordCall.bind.inj hb.1
        rw [h.digest]
    · exact ⟨a, (hsplit a).mpr (.inr hsucceeds)⟩

theorem Opened.wellFormed {r : InvitationRecord} (h : Opened r) : r.WellFormed := by
  obtain ⟨invitation, rfl⟩ | ⟨input, hinput⟩ := h
  · simp [WellFormed, new]
  · exact (encode_of_decode hinput).2

theorem run_sound {r₀ : InvitationRecord} (h : r₀.WellFormed) (calls : List RecordCall) :
    Sound r₀ calls (Runs.after step r₀ calls) := by
  refine Runs.invariant step ?_ (fun _ call ih => ih.concat call) calls
  have hnone : ∀ a, ¬ Succeeded r₀ [] a := by
    rintro a ⟨before, call, rest, hnil, -⟩
    exact List.append_ne_nil_of_right_ne_nil before (List.cons_ne_nil call rest) hnil.symm
  exact ⟨rfl, h, fun a ha => absurd ha (hnone a), fun a ha => absurd ha (hnone a),
    fun h₀ hbound => (by cases h₀.symm.trans hbound)⟩

theorem run_rank {r₀ : InvitationRecord} (h : r₀.WellFormed) (before rest : List RecordCall) :
    (Runs.after step r₀ before).status.rank ≤
      (Runs.after step r₀ (before ++ rest)).status.rank := by
  induction rest using List.reverseRecOn with
  | nil => rw [List.append_nil]
  | append_singleton rest call ih =>
    rw [← List.append_assoc, Runs.after_concat]
    exact ih.trans (step_rank (run_sound h (before ++ rest)).wellFormed)

/-- The law of one run: where the binding stands, in which order the statuses come,
which bind a bound record takes, what any other bind does to it, and what a restart
reads back. -/
structure Law (r₀ : InvitationRecord) (calls : List RecordCall) : Prop where
  binding_iff_bound : (Runs.after step r₀ calls).binding.isSome ↔
    (Runs.after step r₀ calls).status = .bound
  forward : ∀ before rest, calls = before ++ rest →
    (Runs.after step r₀ before).status.rank ≤ (Runs.after step r₀ calls).status.rank
  first_bind : r₀.status = .unused → (Runs.after step r₀ calls).status = .bound →
    ∃ first, Succeeded r₀ calls first
  resumes : ∀ before a rest, calls = before ++ .bind a :: rest →
    (Runs.after step r₀ before).status = .bound → ∀ first, Succeeded r₀ before first →
      (Succeeds a (.bind a) (Runs.after step r₀ before) ↔ a = first)
  refused : ∀ before a rest, calls = before ++ .bind a :: rest →
    ¬ Succeeds a (.bind a) (Runs.after step r₀ before) →
      (Runs.after step r₀ calls).status = .spent
  spent_refuses : ∀ before a rest, calls = before ++ .bind a :: rest →
    (Runs.after step r₀ before).status = .spent →
      bindAttempt a (Runs.after step r₀ before) = .error .invitation (Runs.after step r₀ before)
  stored : ∃ stored, encode (Runs.after step r₀ calls) = .ok stored ∧
    decode stored = .ok (Runs.after step r₀ calls)
  restart : ∀ before rest, calls = before ++ .restart :: rest →
    step .restart (Runs.after step r₀ before) = .ok [] (Runs.after step r₀ before)

/-- A refused bind leaves a spent record. -/
theorem refused_spent {a : Attempt} {r : InvitationRecord}
    (h : ¬ Succeeds a (.bind a) r) : (Call.after (step (.bind a) r)).status = .spent := by
  have hafter : Call.after (step (.bind a) r) = Call.after (bindAttempt a r) :=
    Call.after_map _ _ _
  rw [hafter]
  obtain ⟨-, hrun⟩ | ⟨-, -, hrun⟩ | ⟨-, -, hrun⟩ | ⟨hstatus, hrun⟩ := bindAttempt_cases a r
  · exact absurd ⟨rfl, _, _, hrun⟩ h
  · exact absurd ⟨rfl, _, _, hrun⟩ h
  · rw [hrun]
    rfl
  · rw [hrun]
    exact hstatus

/-- The attempts of a run have bindings of their own. -/
def HashesApart (r₀ : InvitationRecord) (calls : List RecordCall) : Prop :=
  Set.InjOn sha256 {input | ∃ a, .bind a ∈ calls ∧ input = a.encoding r₀.invitationDigest}

theorem Succeeded.mem {r₀ : InvitationRecord} {calls : List RecordCall} {a : Attempt}
    (h : Succeeded r₀ calls a) : .bind a ∈ calls := by
  obtain ⟨before, call, rest, rfl, rfl, -⟩ := h
  simp

theorem run_resumes {r₀ : InvitationRecord} (h : r₀.WellFormed) {before rest : List RecordCall}
    {a first : Attempt} (hapart : HashesApart r₀ (before ++ .bind a :: rest))
    (hbound : (Runs.after step r₀ before).status = .bound) (hfirst : Succeeded r₀ before first) :
    Succeeds a (.bind a) (Runs.after step r₀ before) ↔ a = first := by
  have hsound := run_sound h before
  rw [succeeds_iff hbound, hsound.held first hfirst hbound, hsound.digest, Option.some.injEq,
    Attempt.binding_eq, Attempt.binding_eq]
  constructor
  · intro hhash
    have hencoding := hapart ⟨first, List.mem_append_left _ hfirst.mem, rfl⟩
      ⟨a, List.mem_append_right _ List.mem_cons_self, rfl⟩ hhash
    exact (Attempt.encoding_injective _ hencoding).symm
  · rintro rfl
    rfl

end InvitationRecord

/-! ### A run with a second attempt -/

namespace InvitationRecord

/-- A hash that keeps the tail of its input. -/
@[reducible] def tailHash : Primitives :=
  { Primitives.transparent with sha256 := fun input => fill 32 input.reverse }

attribute [local instance] tailHash

def sampleAttempt (publicContext : UInt8) : Attempt :=
  ⟨fill 32 [0x55], ⟨[5], by decide⟩, ⟨[publicContext], by simp⟩⟩

def sampleCalls : List RecordCall :=
  [.bind (sampleAttempt 4), .restart, .bind (sampleAttempt 4), .bind (sampleAttempt 3), .restart,
    .bind (sampleAttempt 4)]

end InvitationRecord
end Pairing
end CbclPairing
