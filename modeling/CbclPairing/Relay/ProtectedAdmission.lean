import CbclPairing.Relay.Storage

/-! Admission to a protected mailbox: one claim that opens the allocated commitment
installs the claimant, and every other claim is refused without a trace. -/
namespace CbclPairing
open Codec Calls

/-- A claim of either version. -/
def MailboxCommand.isClaim : MailboxCommand → Bool
  | .claim _ | .claimV2 .. => true
  | _ => false

def MailboxEffect.isClaimed : MailboxEffect → Bool
  | .claimed .. => true
  | _ => false

variable [Primitives]

namespace Mailbox

variable {input : V2AllocationInput} {m₀ m m' : Mailbox} {effects : List MailboxEffect}

/-- A claim in time that opens the commitment of a waiting mailbox under a fresh hash. -/
inductive Installs (commitment : Octets 32) (m : Mailbox) :
    UInt64 × MailboxCommand → MembershipHash → Prop
  | opened {now : UInt64} {hash : MembershipHash} {token : ClaimToken} : now < m.expiresAt →
      m.status = .waiting → claimCommitment m.mailboxId token = commitment →
      hash ≠ m.allocator.hash → Installs commitment m (now, .claimV2 hash token) hash

omit [Primitives] in
/-- The mailbox with its claimant joined under the protected rule. -/
def joinedV2 (m : Mailbox) (hash : MembershipHash) : Mailbox :=
  { m with claimant := some (newMember hash), status := .paired, admission := .v2Claimed }

/-- What holds of every mailbox reached from a protected allocation. -/
structure Protected (input : V2AllocationInput) (m : Mailbox) : Prop where
  sound : m.Sound
  mailboxId : m.mailboxId = input.mailboxId
  expiresAt : m.expiresAt.toNat = input.now.toNat + v2TtlSeconds
  admission : m.admission ≠ .v1
  pending : ∀ commitment, m.admission = .v2Pending commitment →
    commitment = input.claimCommitment
  uncrowded : m.status ≠ .terminal .crowded

omit [Primitives] in
theorem allocateV2_expiresAt (h : allocateV2 input = .ok m) :
    m.expiresAt.toNat = input.now.toNat + v2TtlSeconds := by
  unfold allocateV2 at h
  obtain ⟨-, h⟩ := Calls.guard_eq_ok.mp h
  obtain ⟨expiresAt, hexpiry, h⟩ := Calls.except_bind_eq_ok.mp h
  obtain rfl := Except.ok.inj h
  unfold expiry checkedAdd64 at hexpiry
  split_ifs at hexpiry with hroom
  · obtain rfl := Except.ok.inj hexpiry
    show (UInt64.ofNat _).toNat = _
    rw [UInt64.toNat_ofNat']
    exact Nat.mod_eq_of_lt hroom

theorem allocateV2_protected (h : allocateV2 input = .ok m) : Protected input m := by
  obtain ⟨-, hstatus, hadmission, -⟩ := allocateV2_eq_ok h
  refine ⟨(Allocated.v2 h).fresh.1, (allocateV2_given h).1, allocateV2_expiresAt h, ?_, ?_, ?_⟩
  · rw [hadmission]
    intro h
    cases h
  · intro commitment hcommitment
    rw [hadmission] at hcommitment
    exact (Admission.v2Pending.inj hcommitment).symm
  · rw [hstatus]
    intro h
    cases h

/-- A protected mailbox ends by a conflict or a close. -/
theorem Ends.uncrowded {c : MailboxCommand} {reason : CloseReason} (h : Ends m c reason)
    (hadmission : m.admission ≠ .v1) : reason ≠ .crowded := by
  cases h with
  | crowded hv1 => exact absurd hv1 hadmission
  | conflict => exact (by intro h; cases h)
  | closed => exact (by intro h; cases h)

/-- No move brings a commitment back. -/
theorem Moves.pending {c : MailboxCommand} (h : Moves m c effects m') {commitment : Octets 32}
    (hpending : m'.admission = .v2Pending commitment) : m.admission = .v2Pending commitment := by
  cases h with
  | claimed => exact hpending
  | claimedV2 => cases hpending
  | opened => exact hpending
  | repeated => exact hpending
  | stored => simpa [extended] using hpending
  | acknowledged => simpa [Mailbox.acknowledged] using hpending
  | ended =>
    simp only [Mailbox.ended] at hpending
    split_ifs at hpending

theorem Protected.moves (h : Protected input m) (hlive : m.status.isTerminal = false)
    {c : MailboxCommand} (hmoves : Moves m c effects m') : Protected input m' := by
  obtain ⟨hid, -, hexpires⟩ := hmoves.kept
  refine ⟨hmoves.sound h.sound hlive, hid.trans h.mailboxId, ?_, ?_, ?_, ?_⟩
  · rw [hexpires]
    exact h.expiresAt
  · exact mt hmoves.admission_v1.mp h.admission
  · intro commitment hpending
    exact h.pending commitment (hmoves.pending hpending)
  · intro hcrowded
    obtain ⟨reason, hends, rfl, -⟩ := hmoves.ended_of_terminal hlive (by rw [hcrowded]; rfl)
    exact hends.uncrowded h.admission (MailboxStatus.terminal.inj hcrowded)

theorem reached_protected (hstart : allocateV2 input = .ok m₀)
    (calls : List (UInt64 × MailboxCommand)) :
    ∀ m ∈ Runs.after attempt (some m₀) calls, Protected input m :=
  reached (fun _ h => h.sound.toRecorded) (fun _ _ _ _ h hlive hmoves => h.moves hlive hmoves)
    (allocateV2_protected hstart) calls

/-! ### One claim -/

/-- A protected mailbox waits exactly while it holds the commitment. -/
theorem Protected.waiting_iff (h : Protected input m) :
    m.status = .waiting ↔ m.admission = .v2Pending input.claimCommitment := by
  have hfits := h.sound.admission
  constructor
  · intro hwaiting
    cases hadmission : m.admission with
    | v1 => exact absurd hadmission h.admission
    | v2Pending commitment => rw [h.pending commitment hadmission]
    | v2Claimed => simp [admissionFits, hwaiting, hadmission] at hfits
    | v2Closed => simp [admissionFits, hwaiting, hadmission] at hfits
  · intro hadmission
    cases hstatus : m.status with
    | waiting => rfl
    | paired => simp [admissionFits, hstatus, hadmission] at hfits
    | terminal reason => simp [admissionFits, hstatus, hadmission] at hfits

/-- No commitment is held with a claimant. -/
theorem Protected.claimant_none (h : Protected input m) {commitment : Octets 32}
    (hpending : m.admission = .v2Pending commitment) : m.claimant = none := by
  obtain rfl := h.pending commitment hpending
  exact h.sound.waiting (h.waiting_iff.mpr hpending)

theorem Protected.installs (h : Protected input m) {call : UInt64 × MailboxCommand}
    {hash : MembershipHash} (hcall : Installs input.claimCommitment m call hash) :
    attempt call (some m) = .ok [.claimed .claimant m.expiresAt] (some (m.joinedV2 hash)) := by
  cases hcall with
  | @opened now hash token hnow hwaiting hopens hfresh =>
    have hadmission := h.waiting_iff.mp hwaiting
    have hnone := h.sound.waiting hwaiting
    have hclaim : m.claimV2 hash token =
        .ok ⟨some (m.joinedV2 hash), [.claimed .claimant m.expiresAt]⟩ := by
      simp [claimV2, hadmission, hopens, hfresh, hnone, joinedV2]
    have hstep : m.transition now (.claimV2 hash token) = m.claimV2 hash token := by
      unfold transition
      rw [if_neg (UInt64.not_le.mpr hnow), hwaiting]
      rfl
    simp [attempt, hstep, hclaim]

/-- A claim in time either installs the claimant or is refused and changes nothing. -/
theorem Protected.claim (h : Protected input m) {now : UInt64} {c : MailboxCommand}
    (hnow : now < m.expiresAt) (hclaim : c.isClaim = true)
    (hnot : ∀ hash, ¬ Installs input.claimCommitment m (now, c) hash) :
    ∃ e, attempt (now, c) (some m) = .error (.error e) (some m) := by
  obtain ⟨e, hcall⟩ | ⟨-, hlive, effects, m', hcall, hmoves⟩ | ⟨hexpired, -⟩ :=
    attempt_some h.sound.toRecorded (now, c)
  · exact ⟨e, hcall⟩
  · cases hmoves with
    | claimed hv1 => exact absurd hv1 h.admission
    | @claimedV2 hash token hpending hfresh hnone =>
      have hopens := h.pending _ hpending
      refine absurd (.opened hnow ?_ hopens hfresh) (hnot hash)
      rw [hopens] at hpending
      exact h.waiting_iff.mpr hpending
    | opened => cases hclaim
    | repeated => cases hclaim
    | stored => cases hclaim
    | acknowledged => cases hclaim
    | ended hends =>
      cases hends with
      | crowded hv1 => exact absurd hv1 h.admission
      | conflict => cases hclaim
      | closed => cases hclaim
  · exact absurd hnow (UInt64.not_lt.mpr hexpired)

/-- Only the installing claim changes who the members are. -/
theorem Protected.hashes (h : Protected input m) {call : UInt64 × MailboxCommand}
    (hcall : attempt call (some m) = .ok effects (some m'))
    (hchanged : m'.membershipHashes ≠ m.membershipHashes) :
    m.claimant = none ∧ ∃ hash, Installs input.claimCommitment m call hash := by
  obtain ⟨e, hstep⟩ | ⟨hnow, -, effects', next, hstep, hmoves⟩ | ⟨-, hstep⟩ :=
    attempt_some h.sound.toRecorded call
  · rw [hstep] at hcall
    cases hcall
  · rw [hstep] at hcall
    obtain ⟨rfl, hnext⟩ := EStateM.Result.ok.inj hcall
    obtain rfl := Option.some.inj hnext
    obtain hsame | ⟨hash, hnone, -, -, -⟩ := hmoves.hashes
    · exact absurd hsame hchanged
    refine ⟨hnone, ?_⟩
    obtain ⟨now, c⟩ := call
    by_contra hnot
    rw [not_exists] at hnot
    obtain hsame | ⟨hash, -, -, -, hclaim⟩ := hmoves.hashes
    · exact hchanged hsame
    have hisClaim : c.isClaim = true := by
      obtain rfl | ⟨token, rfl⟩ := hclaim
      · rfl
      · rfl
    obtain ⟨e, hrefused⟩ := h.claim hnow hisClaim hnot
    rw [hstep] at hrefused
    cases hrefused
  · rw [hstep] at hcall
    cases (EStateM.Result.ok.inj hcall).2

/-! ### Whole runs -/

/-- The claims a run has let in. -/
def claims (m₀ : Mailbox) (calls : List (UInt64 × MailboxCommand)) : List MailboxEffect :=
  (Runs.released attempt (some m₀) calls).filter MailboxEffect.isClaimed

theorem Moves.claimed_effects {c : MailboxCommand} (h : Moves m c effects m') :
    effects.filter MailboxEffect.isClaimed = [] ∧ (m'.claimant = none ↔ m.claimant = none) ∨
      (effects.filter MailboxEffect.isClaimed).length = 1 ∧ m.claimant = none ∧
        m'.claimant ≠ none := by
  have hdeliveries : ∀ (recipient : Membership) (frames : List FrameRecord),
      (deliveries recipient frames).filter MailboxEffect.isClaimed = [] := by
    intro recipient frames
    rw [List.filter_eq_nil_iff]
    intro effect hmem
    obtain ⟨frame, -, hframe⟩ := List.mem_filterMap.mp hmem
    obtain ⟨body, -, rfl⟩ := Option.map_eq_some_iff.mp hframe
    intro h
    cases h
  have hdeletions : m.deletions.filter MailboxEffect.isClaimed = [] := by
    rw [List.filter_eq_nil_iff]
    intro effect hmem
    obtain ⟨owner, seq, rfl⟩ := mem_deletions hmem
    intro h
    cases h
  have hset : ∀ (owner : Membership) (state : MemberState),
      (m.setMember owner state).claimant = none ↔ m.claimant = none := by
    intro owner state
    cases owner <;> simp [setMember]
  cases h with
  | claimed _ _ hnone => exact .inr ⟨rfl, hnone, (by intro h; cases h)⟩
  | claimedV2 _ _ hnone => exact .inr ⟨rfl, hnone, (by intro h; cases h)⟩
  | opened => exact .inl ⟨hdeliveries _ _, Iff.rfl⟩
  | repeated => exact .inl ⟨rfl, Iff.rfl⟩
  | stored =>
    refine .inl ⟨?_, hset _ _⟩
    split_ifs <;> rfl
  | acknowledged =>
    refine .inl ⟨?_, hset _ _⟩
    split_ifs <;> rfl
  | ended =>
    refine .inl ⟨?_, ?_⟩
    · rw [List.filter_append, hdeletions]
      rfl
    · simp [Mailbox.ended, erased]

/-- At most one claim was let in, and none while there is no claimant. -/
theorem claims_counted (hstart : allocateV2 input = .ok m₀)
    (calls : List (UInt64 × MailboxCommand)) :
    (claims m₀ calls).length ≤ 1 ∧ ∀ m ∈ Runs.after attempt (some m₀) calls,
      (claims m₀ calls = [] ↔ m.claimant = none) := by
  refine Runs.invariant attempt (P := fun calls s => (claims m₀ calls).length ≤ 1 ∧
    ∀ m ∈ s, (claims m₀ calls = [] ↔ m.claimant = none)) ?_ ?_ calls
  · refine ⟨Nat.zero_le 1, ?_⟩
    intro m hm
    obtain rfl := Option.some.inj hm
    exact iff_of_true rfl (Allocated.v2 hstart).fresh.2.2.2.1
  · intro calls call ih
    have hclaims : claims m₀ (calls ++ [call]) = claims m₀ calls ++
        (Runs.effects (attempt call (Runs.after attempt (some m₀) calls))).filter
          MailboxEffect.isClaimed := by
      rw [claims, Runs.released_concat, List.filter_append]
      rfl
    rw [hclaims]
    cases hs : Runs.after attempt (some m₀) calls with
    | none =>
      have hcall : attempt call none = .ok [] none := rfl
      rw [hcall]
      simpa using ih.1
    | some m =>
      rw [hs] at ih
      obtain ⟨hcount, hclaimant⟩ := ih
      have hprotected := reached_protected hstart calls m hs
      obtain ⟨e, hcall⟩ | ⟨-, -, effects, m', hcall, hmoves⟩ | ⟨-, hcall⟩ :=
        attempt_some hprotected.sound.toRecorded call
      · rw [hcall]
        simpa using ⟨hcount, hclaimant m rfl⟩
      · rw [hcall]
        simp only [Runs.effects_ok, Call.after_ok, Option.mem_some_iff, forall_eq']
        obtain ⟨hquiet, hsame⟩ | ⟨hone, hnone, hsome⟩ := hmoves.claimed_effects
        · rw [hquiet, List.append_nil, hsame]
          exact ⟨hcount, hclaimant m rfl⟩
        · rw [(hclaimant m rfl).mpr hnone, List.nil_append]
          refine ⟨hone.le, iff_of_false ?_ hsome⟩
          intro hnil
          rw [hnil] at hone
          cases hone
      · rw [hcall]
        have hquiet : (m.deletions ++ if m.status.isTerminal then []
            else [MailboxEffect.terminal .expired]).filter MailboxEffect.isClaimed = [] := by
          rw [List.filter_eq_nil_iff]
          intro effect hmem
          obtain hmem | hmem := List.mem_append.mp hmem
          · obtain ⟨owner, seq, rfl⟩ := mem_deletions hmem
            intro h
            cases h
          · split_ifs at hmem
            · cases hmem
            · obtain rfl := List.mem_singleton.mp hmem
              intro h
              cases h
        rw [Runs.effects_ok, hquiet, List.append_nil]
        exact ⟨hcount, (by intros; contradiction)⟩

/-- What the claims of a protected mailbox can and cannot do, after any commands. -/
structure AdmitsOnce (input : V2AllocationInput) (m₀ : Mailbox)
    (calls : List (UInt64 × MailboxCommand)) : Prop where
  /-- At most one claim is ever let in. -/
  once : (claims m₀ calls).length ≤ 1
  /-- The members change only by the claim that opens the allocated commitment. -/
  installed : ∀ m call effects m', Runs.after attempt (some m₀) calls = some m →
    attempt call (some m) = .ok effects (some m') → m'.membershipHashes ≠ m.membershipHashes →
    m.claimant = none ∧ ∃ hash, Installs input.claimCommitment m call hash
  /-- That claim installs the claimant. -/
  admitted : ∀ m call hash, Runs.after attempt (some m₀) calls = some m →
    Installs input.claimCommitment m call hash →
    attempt call (some m) = .ok [.claimed .claimant m.expiresAt] (some (m.joinedV2 hash))
  /-- Every other claim in time is refused and changes nothing. -/
  refused : ∀ m now c, Runs.after attempt (some m₀) calls = some m → now < m.expiresAt →
    c.isClaim = true → (∀ hash, ¬ Installs input.claimCommitment m (now, c) hash) →
    ∃ e, attempt (now, c) (some m) = .error (.error e) (some m)
  uncrowded : ∀ m ∈ Runs.after attempt (some m₀) calls, m.status ≠ .terminal .crowded
  /-- Once the claim is let in, no commitment is held or written. -/
  erased : claims m₀ calls ≠ [] → ∀ m ∈ Runs.after attempt (some m₀) calls,
    ∀ commitment, m.admission ≠ .v2Pending commitment ∧
      m.snapshot.admission ≠ .v2Pending commitment
  lifetime : ∀ m ∈ Runs.after attempt (some m₀) calls,
    m.expiresAt.toNat = input.now.toNat + 900 ∧ m.expiresAt = m₀.expiresAt

theorem protected_admission (hstart : allocateV2 input = .ok m₀)
    (calls : List (UInt64 × MailboxCommand)) : AdmitsOnce input m₀ calls := by
  have hreached := reached_protected hstart calls
  obtain ⟨honce, hclaimant⟩ := claims_counted hstart calls
  refine ⟨honce, ?_, ?_, ?_, ?_, ?_, ?_⟩
  · intro m call effects m' hm hcall hchanged
    exact (hreached m hm).hashes hcall hchanged
  · intro m call hash hm hcall
    exact (hreached m hm).installs hcall
  · intro m now c hm hnow hclaim hnot
    exact (hreached m hm).claim hnow hclaim hnot
  · intro m hm
    exact (hreached m hm).uncrowded
  · intro hclaimed m hm commitment
    have hnone : m.admission ≠ .v2Pending commitment := by
      intro hpending
      exact hclaimed ((hclaimant m hm).mpr ((hreached m hm).claimant_none hpending))
    exact ⟨hnone, hnone⟩
  · intro m hm
    have hexpires := (hreached m hm).expiresAt
    refine ⟨hexpires, ?_⟩
    rw [← UInt64.toNat_inj, hexpires, allocateV2_expiresAt hstart]

end Mailbox
end CbclPairing

namespace CbclPairing
open Codec Calls

attribute [local instance] Primitives.transparent

def V2AllocationInput.sample : V2AllocationInput where
  mailboxId := fill 32 [1]
  allocatorHash := fill 32 [2]
  claimCommitment := CbclPairing.claimCommitment (fill 32 [1]) (fill 16 [7])
  now := 0
  ttlSeconds := none

def Mailbox.sampleV2 : Mailbox where
  mailboxId := fill 32 [1]
  nameplate := none
  expiresAt := 900
  status := .waiting
  admission := .v2Pending (claimCommitment (fill 32 [1]) (fill 16 [7]))
  allocator := Mailbox.newMember (fill 32 [2])
  claimant := none
  queueBytes := 0

theorem Mailbox.allocateV2_sample :
    Mailbox.allocateV2 V2AllocationInput.sample = .ok Mailbox.sampleV2 := by
  have hexpiry : Mailbox.expiry 0 900 = .ok 900 := by
    simp [Mailbox.expiry, checkedAdd64]
  simp [Mailbox.allocateV2, V2AllocationInput.sample, v2TtlSeconds, hexpiry, Mailbox.sampleV2]

/-- A protected mailbox after a v1 claim, the opening claim and a repeated one. -/
theorem Mailbox.protected_admission_sample :
    Mailbox.AdmitsOnce V2AllocationInput.sample Mailbox.sampleV2
      [(1, .claim (fill 32 [3])), (2, .claimV2 (fill 32 [4]) (fill 16 [7])),
        (3, .claimV2 (fill 32 [5]) (fill 16 [7]))] :=
  Mailbox.protected_admission Mailbox.allocateV2_sample _

end CbclPairing
