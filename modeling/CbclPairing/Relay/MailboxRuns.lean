import CbclPairing.Relay.MailboxSteps

/-! Runs of commands on one mailbox, and the representation invariant that every
mailbox they reach has. -/
namespace CbclPairing
open Codec Calls

variable [Primitives]

namespace Mailbox

/-- A mailbox as one of the two allocations makes it. -/
inductive Allocated : Mailbox → Prop
  | v1 {input : AllocationInput} {m : Mailbox} : allocate input = .ok m → Allocated m
  | v2 {input : V2AllocationInput} {m : Mailbox} : allocateV2 input = .ok m → Allocated m

/-- One command at one time. A refused command keeps the mailbox, and no command
reaches a reaped one. -/
def attempt (call : UInt64 × MailboxCommand) :
    Call (Fault MailboxError) (Option Mailbox) (List MailboxEffect)
  | none => .ok [] none
  | some m =>
    match m.transition call.1 call.2 with
    | .ok t => .ok t.effects t.state
    | .error e => .error e (some m)

section Start

omit [Primitives]

theorem newMember_sound [Primitives] (hash : MembershipHash) : (newMember hash).Sound :=
  ⟨rfl, rfl, by simp [newMember], by simp [newMember]⟩

theorem allocate_eq_ok {input : AllocationInput} {m : Mailbox} (h : allocate input = .ok m) :
    (∀ n ∈ m.nameplate, n ≤ 999999999) ∧ m.status = .waiting ∧ m.admission = .v1 ∧
      (∃ hash, m.allocator = newMember hash) ∧ m.claimant = none ∧ m.queueBytes = 0 := by
  unfold allocate at h
  obtain ⟨-, h⟩ := Calls.guard_eq_ok.mp h
  obtain ⟨hnameplate, h⟩ := Calls.guard_eq_ok.mp h
  obtain ⟨expiresAt, -, h⟩ := Calls.except_bind_eq_ok.mp h
  obtain rfl := Except.ok.inj h
  refine ⟨?_, rfl, rfl, ⟨_, rfl⟩, rfl, rfl⟩
  intro n hn
  have hn : input.nameplate = some n := hn
  simpa [hn] using hnameplate

theorem allocateV2_eq_ok {input : V2AllocationInput} {m : Mailbox}
    (h : allocateV2 input = .ok m) :
    m.nameplate = none ∧ m.status = .waiting ∧ m.admission = .v2Pending input.claimCommitment ∧
      (∃ hash, m.allocator = newMember hash) ∧ m.claimant = none ∧ m.queueBytes = 0 := by
  unfold allocateV2 at h
  obtain ⟨-, h⟩ := Calls.guard_eq_ok.mp h
  obtain ⟨expiresAt, -, h⟩ := Calls.except_bind_eq_ok.mp h
  obtain rfl := Except.ok.inj h
  exact ⟨rfl, rfl, rfl, ⟨_, rfl⟩, rfl, rfl⟩

/-- An allocation keeps the identifier, the nameplate and the hash it is given. -/
theorem allocate_given {input : AllocationInput} {m : Mailbox} (h : allocate input = .ok m) :
    m.mailboxId = input.mailboxId ∧ m.nameplate = input.nameplate ∧
      m.allocator.hash = input.allocatorHash := by
  unfold allocate at h
  obtain ⟨-, h⟩ := Calls.guard_eq_ok.mp h
  obtain ⟨-, h⟩ := Calls.guard_eq_ok.mp h
  obtain ⟨expiresAt, -, h⟩ := Calls.except_bind_eq_ok.mp h
  obtain rfl := Except.ok.inj h
  exact ⟨rfl, rfl, rfl⟩

theorem allocateV2_given {input : V2AllocationInput} {m : Mailbox}
    (h : allocateV2 input = .ok m) :
    m.mailboxId = input.mailboxId ∧ m.nameplate = none ∧
      m.allocator.hash = input.allocatorHash := by
  unfold allocateV2 at h
  obtain ⟨-, h⟩ := Calls.guard_eq_ok.mp h
  obtain ⟨expiresAt, -, h⟩ := Calls.except_bind_eq_ok.mp h
  obtain rfl := Except.ok.inj h
  exact ⟨rfl, rfl, rfl⟩

end Start

variable {m m₀ : Mailbox}

/-- What an allocation starts: a sound, empty mailbox that waits. -/
theorem Allocated.fresh (h : Allocated m₀) : m₀.Sound ∧ m₀.status = .waiting ∧
    m₀.allocator.frames = [] ∧ m₀.claimant = none ∧ m₀.queueBytes = 0 := by
  have hfresh : (∀ n ∈ m₀.nameplate, n ≤ 999999999) ∧ m₀.status = .waiting ∧
      admissionFits m₀.admission .waiting m₀.nameplate = true ∧
      (∃ hash, m₀.allocator = newMember hash) ∧ m₀.claimant = none ∧ m₀.queueBytes = 0 := by
    cases h with
    | v1 h =>
      obtain ⟨hnameplate, hstatus, hadmission, hrest⟩ := allocate_eq_ok h
      exact ⟨hnameplate, hstatus, by rw [hadmission]; rfl, hrest⟩
    | v2 h =>
      obtain ⟨hnameplate, hstatus, hadmission, hrest⟩ := allocateV2_eq_ok h
      exact ⟨by simp [hnameplate], hstatus, by rw [hadmission, hnameplate]; rfl, hrest⟩
  obtain ⟨hnameplate, hstatus, hadmission, ⟨hash, hallocator⟩, hclaimant, hqueue⟩ := hfresh
  refine ⟨⟨⟨hnameplate, ?_, ?_, ?_, ?_, ?_, ?_⟩, ?_, ?_⟩, hstatus, ?_, hclaimant, hqueue⟩
  · rw [hallocator]
    exact newMember_sound hash
  · simp [hclaimant]
  · simp [hqueue, queued, hallocator, hclaimant, newMember, MemberState.queued]
  · intro _
    exact hclaimant
  · simp [hstatus]
  · rw [hstatus]
    exact hadmission
  · simp [hclaimant]
  · simp [hstatus, MailboxStatus.isTerminal]
  · rw [hallocator]
    rfl

/-- What one call does to a sound mailbox: nothing, one of its moves, or the end
of it. -/
theorem attempt_some (h : m.Recorded) (call : UInt64 × MailboxCommand) :
    (∃ e, attempt call (some m) = .error (.error e) (some m)) ∨
    (call.1 < m.expiresAt ∧ m.status.isTerminal = false ∧ ∃ effects m',
      attempt call (some m) = .ok effects (some m') ∧ Moves m call.2 effects m') ∨
    (m.expiresAt ≤ call.1 ∧ attempt call (some m) = .ok (m.deletions ++
      if m.status.isTerminal then [] else [.terminal .expired]) none) := by
  have houtcome := transition_outcome h call.1 call.2
  simp only [attempt]
  generalize m.transition call.1 call.2 = result at houtcome
  cases houtcome with
  | reaped hexpired => exact .inr (.inr ⟨hexpired, rfl⟩)
  | refused => exact .inl ⟨_, rfl⟩
  | moved hnow hlive hmoves => exact .inr (.inl ⟨hnow, hlive, _, _, rfl, hmoves⟩)

/-- An invariant of the moves of live mailboxes holds of every mailbox a run
reaches. -/
theorem reached {P : Mailbox → Prop} (hrecorded : ∀ m, P m → m.Recorded)
    (hmoves : ∀ m c effects m', P m → m.status.isTerminal = false → Moves m c effects m' → P m')
    (hstart : P m₀) (calls : List (UInt64 × MailboxCommand)) :
    ∀ m ∈ Runs.after attempt (some m₀) calls, P m := by
  refine Runs.invariant attempt (P := fun _ s => ∀ m ∈ s, P m) ?_ ?_ calls
  · intro m hm
    obtain rfl := Option.some.inj hm
    exact hstart
  · intro calls call ih
    cases hs : Runs.after attempt (some m₀) calls with
    | none => simp [attempt]
    | some m =>
      have hm : P m := ih m hs
      obtain ⟨e, hcall⟩ | ⟨-, hlive, effects, m', hcall, hmoved⟩ | ⟨-, hcall⟩ :=
        attempt_some (hrecorded m hm) call
      · rw [hcall]
        simpa using hm
      · rw [hcall]
        simpa using hmoves m call.2 effects m' hm hlive hmoved
      · rw [hcall]
        simp

theorem reached_sound (hstart : Allocated m₀) (calls : List (UInt64 × MailboxCommand)) :
    ∀ m ∈ Runs.after attempt (some m₀) calls, m.Sound :=
  reached (fun _ h => h.toRecorded) (fun _ _ _ _ h hlive hmoved => hmoved.sound h hlive)
    hstart.fresh.1 calls

/-- The status says who has joined, and the admission follows the version the
mailbox was allocated with and the status. -/
structure Staged (start m : Mailbox) : Prop where
  waiting : m.status = .waiting ↔ m.claimant = none ∧ m.status.isTerminal = false
  paired : m.status = .paired ↔ m.claimant.isSome = true ∧ m.status.isTerminal = false
  v1 : start.admission = .v1 → m.admission = .v1
  v2 : start.admission ≠ .v1 → m.nameplate = none ∧
    ((∃ commitment, m.admission = .v2Pending commitment) ↔ m.status = .waiting) ∧
    (m.admission = .v2Claimed ↔ m.status = .paired) ∧
    (m.admission = .v2Closed ↔ m.status.isTerminal = true)

theorem Recorded.staged (h : m.Recorded) (hv1 : m.admission = .v1 ↔ m₀.admission = .v1) :
    Staged m₀ m := by
  refine ⟨?_, ?_, hv1.mpr, ?_⟩
  · constructor
    · intro hstatus
      exact ⟨h.waiting hstatus, by rw [hstatus]; rfl⟩
    · rintro ⟨hnone, hlive⟩
      cases hstatus : m.status with
      | waiting => rfl
      | paired => exact absurd (h.paired hstatus) (by simp [hnone])
      | terminal reason => simp [hstatus, MailboxStatus.isTerminal] at hlive
  · constructor
    · intro hstatus
      exact ⟨h.paired hstatus, by rw [hstatus]; rfl⟩
    · rintro ⟨hsome, hlive⟩
      cases hstatus : m.status with
      | waiting => simp [h.waiting hstatus] at hsome
      | paired => rfl
      | terminal reason => simp [hstatus, MailboxStatus.isTerminal] at hlive
  · intro hne
    have hadmission := h.admission
    have hv2 : m.admission ≠ .v1 := mt hv1.mp hne
    cases hkind : m.admission <;> cases hstatus : m.status <;>
      simp_all [admissionFits, MailboxStatus.isTerminal]

theorem reached_staged (hstart : Allocated m₀) (calls : List (UInt64 × MailboxCommand)) :
    ∀ m ∈ Runs.after attempt (some m₀) calls, Staged m₀ m := by
  intro m hm
  have hv1 : m.admission = .v1 ↔ m₀.admission = .v1 := by
    refine (reached (P := fun m => m.Recorded ∧ (m.admission = .v1 ↔ m₀.admission = .v1))
      (fun _ h => h.1) ?_ ⟨hstart.fresh.1.toRecorded, Iff.rfl⟩ calls m hm).2
    intro m c effects m' h _ hmoved
    exact ⟨hmoved.recorded h.1, hmoved.admission_v1.trans h.2⟩
  exact (reached_sound hstart calls m hm).toRecorded.staged hv1

theorem attempt_not_panicked {s : Option Mailbox} (h : ∀ m ∈ s, m.Recorded)
    (call : UInt64 × MailboxCommand) :
    Call.verdict (attempt call s) ≠ .error .panicked := by
  cases s with
  | none => simp [attempt]
  | some m =>
    obtain ⟨e, hcall⟩ | ⟨-, -, effects, m', hcall, -⟩ | ⟨-, hcall⟩ :=
      attempt_some (h m rfl) call <;> simp [hcall]

/-- Every mailbox that commands reach is well formed, and no command on it
panics. -/
theorem representation_invariant (hstart : Allocated m₀)
    (calls : List (UInt64 × MailboxCommand)) :
    (∀ m ∈ Runs.after attempt (some m₀) calls, m.Sound ∧ Staged m₀ m) ∧
      ∀ call, Call.verdict (attempt call (Runs.after attempt (some m₀) calls)) ≠
        .error .panicked := by
  have hsound := reached_sound hstart calls
  constructor
  · intro m hm
    exact ⟨hsound m hm, reached_staged hstart calls m hm⟩
  · intro call
    exact attempt_not_panicked (fun m hm => (hsound m hm).toRecorded) call

end Mailbox
end CbclPairing

namespace CbclPairing
open Codec Calls

attribute [local instance] Primitives.transparent

def AllocationInput.sample : AllocationInput where
  mailboxId := fill 32 [1]
  nameplate := some 7
  allocatorHash := fill 32 [2]
  now := 0
  ttlSeconds := none

def Mailbox.sample : Mailbox where
  mailboxId := fill 32 [1]
  nameplate := some 7
  expiresAt := 600
  status := .waiting
  admission := .v1
  allocator := Mailbox.newMember (fill 32 [2])
  claimant := none
  queueBytes := 0

theorem Mailbox.allocate_sample : Mailbox.Allocated Mailbox.sample :=
  @Mailbox.Allocated.v1 AllocationInput.sample Mailbox.sample rfl

/-- The invariant after a claim, a frame of each member and one acknowledgement. -/
theorem Mailbox.representation_invariant_sample :
    let calls : List (UInt64 × MailboxCommand) := [(1, .claim (fill 32 [3])),
      (2, .put .allocator 0 [4]), (3, .put .claimant 0 [5, 6]), (4, .ack .claimant 0)]
    (∀ m ∈ Runs.after attempt (some Mailbox.sample) calls, m.Sound ∧ Staged Mailbox.sample m) ∧
      ∀ call, Call.verdict (attempt call (Runs.after attempt (some Mailbox.sample) calls)) ≠
        .error .panicked :=
  Mailbox.representation_invariant Mailbox.allocate_sample _

end CbclPairing
