import CbclPairing.Relay.Mailbox

/-! What one mailbox transition can do, and the representation invariant that every
run of commands keeps. -/
namespace CbclPairing
open Codec Calls

/-! ### Accounting -/

/-- The octets a frame takes of the queue. -/
def FrameRecord.queued (f : FrameRecord) : ℕ := if f.body.isSome then f.bodyLen else 0

def FrameRecord.erased (f : FrameRecord) : FrameRecord := { f with body := none }

namespace MemberState

def queued (s : MemberState) : ℕ := (s.frames.map FrameRecord.queued).sum

def erased (s : MemberState) : MemberState := { s with frames := s.frames.map FrameRecord.erased }

/-- The effects of deleting the bodies a member still has queued. -/
def deletions (owner : Membership) (s : MemberState) : List MailboxEffect :=
  s.frames.filterMap fun f => f.body.map fun _ => .bodyDeleted owner f.seq

end MemberState

namespace Mailbox

def framesOf (m : Mailbox) (owner : Membership) : List FrameRecord :=
  ((m.member owner).map MemberState.frames).getD []

/-- The octets of every body present. -/
def queued (m : Mailbox) : ℕ := m.allocator.queued + m.claimant.elim 0 MemberState.queued

def erased (m : Mailbox) : Mailbox :=
  { m with allocator := m.allocator.erased, claimant := m.claimant.map MemberState.erased }

def deletions (m : Mailbox) : List MailboxEffect :=
  m.allocator.deletions .allocator ++ m.claimant.elim [] (MemberState.deletions .claimant)

theorem deleteFrames_ok (owner : Membership) (frames : List FrameRecord) (queue : ℕ)
    (h : (frames.map FrameRecord.queued).sum ≤ queue) :
    deleteFrames owner queue frames = .ok (queue - (frames.map FrameRecord.queued).sum,
      frames.map FrameRecord.erased,
      frames.filterMap fun f => f.body.map fun _ => .bodyDeleted owner f.seq) := by
  induction frames generalizing queue with
  | nil => simp [deleteFrames]
  | cons frame rest ih =>
    simp only [List.map_cons, List.sum_cons] at h
    cases hbody : frame.body with
    | none =>
      have hzero : frame.queued = 0 := by simp [FrameRecord.queued, hbody]
      have herased : frame.erased = frame := by
        cases frame
        simp_all [FrameRecord.erased]
      rw [hzero, Nat.zero_add] at h
      simp [deleteFrames, hbody, ih queue h, hzero, herased]
    | some body =>
      have hqueued : frame.queued = frame.bodyLen := by simp [FrameRecord.queued, hbody]
      rw [hqueued] at h
      have hsub : checkedSub64 queue frame.bodyLen = some (queue - frame.bodyLen) :=
        if_pos (by omega)
      simp [deleteFrames, hbody, hsub, expect, ih (queue - frame.bodyLen) (by omega), hqueued,
        FrameRecord.erased, Nat.sub_sub]

theorem deleteBodies_ok (m : Mailbox) (h : m.queued ≤ m.queueBytes) :
    m.deleteBodies = .ok ({ m.erased with queueBytes := m.queueBytes - m.queued }, m.deletions) := by
  unfold queued at h
  have hallocator := deleteFrames_ok .allocator m.allocator.frames m.queueBytes
    (by unfold MemberState.queued at h; omega)
  cases hclaimant : m.claimant with
  | none =>
    simp [deleteBodies, hallocator, hclaimant, erased, deletions, queued, MemberState.erased,
      MemberState.deletions, MemberState.queued]
  | some claimant =>
    rw [hclaimant, Option.elim_some] at h
    unfold MemberState.queued at h
    have hrest := deleteFrames_ok .claimant claimant.frames
      (m.queueBytes - (m.allocator.frames.map FrameRecord.queued).sum) (by omega)
    simp [deleteBodies, hallocator, hrest, hclaimant, erased, deletions, queued,
      MemberState.erased, MemberState.deletions, MemberState.queued, Nat.sub_sub]

/-- The mailbox after its end: no body, and a closed admission. -/
def ended (m : Mailbox) (reason : CloseReason) : Mailbox :=
  { m.erased with
    queueBytes := m.queueBytes - m.queued, status := .terminal reason
    admission := if m.admission = .v1 then .v1 else .v2Closed }

theorem terminate_ok (m : Mailbox) (reason : CloseReason) (h : m.queued ≤ m.queueBytes) :
    m.terminate reason = .ok ⟨some (m.ended reason), m.deletions ++ [.terminal reason]⟩ := by
  simp [terminate, deleteBodies_ok m h, ended, erased]

theorem reap_ok (m : Mailbox) (now : UInt64) (h : m.queued ≤ m.queueBytes)
    (hnow : m.expiresAt ≤ now) :
    m.reap now = .ok ⟨none, m.deletions ++
      if m.status.isTerminal then [] else [.terminal .expired]⟩ := by
  simp [reap, UInt64.not_lt.mpr hnow, deleteBodies_ok m h, erased]

end Mailbox

/-! ### The representation invariant -/

variable [Primitives]

/-- A frame keeps the length and the digest of its body. -/
structure FrameRecord.Sound (f : FrameRecord) : Prop where
  pos : 1 ≤ f.bodyLen
  le : f.bodyLen ≤ maxFrameBodyBytes
  body : ∀ body ∈ f.body, body.length = f.bodyLen ∧ sha256 body = f.digest

/-- Frames are numbered from zero, and the next sequence is their number. -/
structure MemberState.Sound (s : MemberState) : Prop where
  numbered : s.frames.map (fun f => f.seq.toNat) = List.range s.frames.length
  next : s.nextSeq.toNat = s.frames.length
  bounded : s.frames.length ≤ maxFramesPerMembership
  frames : ∀ f ∈ s.frames, f.Sound

omit [Primitives] in
/-- The admission a status goes with. -/
def Mailbox.admissionFits (admission : Admission) (status : MailboxStatus)
    (nameplate : Option ℕ) : Bool :=
  match admission, status with
  | .v1, _ => true
  | .v2Pending _, .waiting => nameplate.isNone
  | .v2Claimed, .paired => nameplate.isNone
  | .v2Closed, .terminal _ => nameplate.isNone
  | _, _ => false

/-- What a stored record of a mailbox vouches for. -/
structure Mailbox.Recorded (m : Mailbox) : Prop where
  nameplate : ∀ n ∈ m.nameplate, n ≤ 999999999
  allocator : m.allocator.Sound
  claimant : ∀ c ∈ m.claimant, c.Sound
  accounted : m.queueBytes = m.queued
  waiting : m.status = .waiting → m.claimant = none
  paired : m.status = .paired → m.claimant.isSome = true
  admission : admissionFits m.admission m.status m.nameplate = true

/-- The invariant of a mailbox that only its own commands have changed. -/
structure Mailbox.Sound (m : Mailbox) : Prop extends m.Recorded where
  distinct : ∀ c ∈ m.claimant, m.allocator.hash ≠ c.hash
  emptied : m.status.isTerminal = true →
    m.queueBytes = 0 ∧ ∀ owner, ∀ f ∈ m.framesOf owner, f.body = none

theorem MemberState.Sound.queued_le {s : MemberState} (h : s.Sound) :
    s.queued ≤ maxFramesPerMembership * maxFrameBodyBytes := by
  have hframes : ∀ frames : List FrameRecord, (∀ f ∈ frames, f.Sound) →
      (frames.map FrameRecord.queued).sum ≤ frames.length * maxFrameBodyBytes := by
    intro frames hframes
    induction frames with
    | nil => simp
    | cons f frames ih =>
      have hrest := ih fun g hg => hframes g (List.mem_cons_of_mem _ hg)
      have hle := (hframes f List.mem_cons_self).le
      have hqueued : f.queued ≤ f.bodyLen := by
        unfold FrameRecord.queued
        split <;> omega
      simp only [List.map_cons, List.sum_cons, List.length_cons, Nat.add_mul, Nat.one_mul]
      omega
  have hsum := hframes s.frames h.frames
  have hbound := Nat.mul_le_mul_right maxFrameBodyBytes h.bounded
  unfold MemberState.queued
  omega

/-! ### The moves of a live mailbox -/

namespace Mailbox

omit [Primitives] in
/-- An octet string a put may carry. -/
def Admissible (body : Bytes) : Prop := body ≠ [] ∧ body.length ≤ maxFrameBodyBytes

/-- The mailbox with the next frame of one member queued. -/
def extended (m : Mailbox) (sender : Membership) (member : MemberState) (body : Bytes) : Mailbox :=
  { m.setMember sender { member with
      frames := member.frames ++ [⟨member.nextSeq, sha256 body, body.length, some body⟩]
      nextSeq := member.nextSeq + 1 } with
    queueBytes := m.queueBytes + body.length }

omit [Primitives] in
/-- The mailbox with one frame of one member acknowledged. -/
def acknowledged (m : Mailbox) (owner : Membership) (member : MemberState) (frame : FrameRecord) :
    Mailbox :=
  { m.setMember owner { member with frames := dropBody frame.seq member.frames } with
    queueBytes := m.queueBytes - frame.queued }

/-- Why a command ends a mailbox. -/
inductive Ends (m : Mailbox) : MailboxCommand → CloseReason → Prop
  | crowded {hash : MembershipHash} {claimant : MemberState} : m.admission = .v1 →
      m.claimant = some claimant → hash ≠ m.allocator.hash → hash ≠ claimant.hash →
      Ends m (.claim hash) .crowded
  | conflict {sender : Membership} {member : MemberState} {seq : UInt8} {body : Bytes}
      {frame : FrameRecord} : Admissible body → m.member sender = some member →
      seq < member.nextSeq → member.frames.find? (·.seq == seq) = some frame →
      ¬(frame.bodyLen = body.length ∧ frame.digest = sha256 body) →
      Ends m (.put sender seq body) .conflict
  | closed {sender : Membership} : (m.member sender).isSome = true → Ends m (.close sender) .closed

/-- What a command does to a live mailbox. -/
inductive Moves (m : Mailbox) : MailboxCommand → List MailboxEffect → Mailbox → Prop
  | claimed {hash : MembershipHash} : m.admission = .v1 → hash ≠ m.allocator.hash →
      m.claimant = none → Moves m (.claim hash) [.claimed .claimant m.expiresAt]
        { m with claimant := some (newMember hash), status := .paired }
  | claimedV2 {hash : MembershipHash} {token : ClaimToken} :
      m.admission = .v2Pending (claimCommitment m.mailboxId token) → hash ≠ m.allocator.hash →
      m.claimant = none → Moves m (.claimV2 hash token) [.claimed .claimant m.expiresAt]
        { m with
          claimant := some (newMember hash), status := .paired, admission := .v2Claimed }
  | opened {hash : MembershipHash} {membership : Membership} :
      m.membershipForHash hash = some membership →
      Moves m (.openMailbox hash) (.opened membership m.expiresAt ::
        deliveries membership (m.framesOf membership.opposite)) m
  | repeated {sender : Membership} {member : MemberState} {seq : UInt8} {body : Bytes}
      {frame : FrameRecord} : Admissible body → m.member sender = some member →
      seq < member.nextSeq → member.frames.find? (·.seq == seq) = some frame →
      frame.bodyLen = body.length → frame.digest = sha256 body →
      Moves m (.put sender seq body) [.stored sender seq true] m
  | stored {sender : Membership} {member : MemberState} {body : Bytes} : Admissible body →
      m.member sender = some member → member.frames.length < maxFramesPerMembership →
      Moves m (.put sender member.nextSeq body) (.stored sender member.nextSeq false ::
        if (m.member sender.opposite).isSome then [.deliver sender.opposite member.nextSeq body]
        else []) (m.extended sender member body)
  | acknowledged {sender : Membership} {member : MemberState} {frame : FrameRecord} :
      (m.member sender).isSome = true → m.member sender.opposite = some member →
      member.frames.find? (·.seq == frame.seq) = some frame →
      Moves m (.ack sender frame.seq)
        (if frame.body.isSome then [.bodyDeleted sender.opposite frame.seq] else [])
        (m.acknowledged sender.opposite member frame)
  | ended {c : MailboxCommand} {reason : CloseReason} : Ends m c reason →
      Moves m c (m.deletions ++ [.terminal reason]) (m.ended reason)

variable {m : Mailbox}

theorem Recorded.member (h : m.Recorded) {owner : Membership} {member : MemberState}
    (hmember : m.member owner = some member) : member.Sound := by
  cases owner with
  | allocator =>
    obtain rfl := Option.some.inj hmember
    exact h.allocator
  | claimant => exact h.claimant member hmember

theorem Recorded.queued_le (h : m.Recorded) : m.queued ≤ 2228224 := by
  have hallocator := h.allocator.queued_le
  unfold queued
  cases hclaimant : m.claimant with
  | none =>
    simp only [Option.elim_none, maxFramesPerMembership, maxFrameBodyBytes] at *
    omega
  | some claimant =>
    have hclaimant := (h.claimant claimant hclaimant).queued_le
    simp only [Option.elim_some, maxFramesPerMembership, maxFrameBodyBytes] at *
    omega

theorem Recorded.terminate (h : m.Recorded) (reason : CloseReason) :
    m.terminate reason = .ok ⟨some (m.ended reason), m.deletions ++ [.terminal reason]⟩ :=
  terminate_ok m reason h.accounted.ge

/-- A command is refused with an error, or it makes one of the moves. It never
panics. -/
def Answers (m : Mailbox) (c : MailboxCommand) (result : Except (Fault MailboxError)
    MailboxTransition) : Prop :=
  (∃ e, result = .error (.error e)) ∨
    ∃ effects m', result = .ok ⟨some m', effects⟩ ∧ Moves m c effects m'

theorem Moves.answers {c : MailboxCommand} {effects : List MailboxEffect} {m' : Mailbox}
    (h : Moves m c effects m') : Answers m c (.ok ⟨some m', effects⟩) :=
  .inr ⟨effects, m', rfl, h⟩

theorem Ends.answers (h : m.Recorded) {c : MailboxCommand} {reason : CloseReason}
    (hends : Ends m c reason) : Answers m c (m.terminate reason) := by
  rw [h.terminate]
  exact (Moves.ended hends).answers

theorem claim_answers (h : m.Recorded) (hash : MembershipHash) :
    Answers m (.claim hash) (m.claim hash) := by
  unfold claim
  by_cases hadmission : m.admission = .v1
  · rw [if_neg (not_not.mpr hadmission)]
    by_cases hallocator : hash = m.allocator.hash
    · rw [if_pos hallocator]
      exact .inl ⟨_, rfl⟩
    rw [if_neg hallocator]
    cases hclaimant : m.claimant with
    | none => exact (Moves.claimed hadmission hallocator hclaimant).answers
    | some claimant =>
      by_cases hsame : claimant.hash = hash
      · simp only [if_pos hsame]
        exact .inl ⟨_, rfl⟩
      · simp only [if_neg hsame]
        exact Ends.answers h (.crowded hadmission hclaimant hallocator (Ne.symm hsame))
  · rw [if_pos hadmission]
    exact .inl ⟨_, rfl⟩

theorem claimV2_answers (m : Mailbox) (hash : MembershipHash) (token : ClaimToken) :
    Answers m (.claimV2 hash token) (m.claimV2 hash token) := by
  unfold claimV2
  cases hadmission : m.admission with
  | v2Pending expected =>
    dsimp only
    by_cases hexpected : expected = claimCommitment m.mailboxId token
    · rw [if_neg (not_not.mpr hexpected)]
      by_cases hcollision : hash = m.allocator.hash ∨ m.claimant.isSome
      · rw [if_pos hcollision]
        exact .inl ⟨_, rfl⟩
      · rw [if_neg hcollision]
        rw [not_or, Bool.not_eq_true, Option.isSome_eq_false_iff, Option.isNone_iff_eq_none]
          at hcollision
        exact (Moves.claimedV2 (hexpected ▸ hadmission) hcollision.1 hcollision.2).answers
    · rw [if_pos hexpected]
      exact .inl ⟨_, rfl⟩
  | _ => exact .inl ⟨_, rfl⟩

theorem openMailbox_answers (m : Mailbox) (hash : MembershipHash) :
    Answers m (.openMailbox hash) (m.openMailbox hash) := by
  unfold openMailbox
  cases hmembership : m.membershipForHash hash with
  | none => exact .inl ⟨_, rfl⟩
  | some membership => exact (Moves.opened hmembership).answers

theorem store_ok (h : m.Recorded) {sender : Membership} {member : MemberState} {body : Bytes}
    (hmember : m.member sender = some member) (hbody : Admissible body)
    (hroom : member.frames.length < maxFramesPerMembership) :
    m.store sender member member.nextSeq body = .ok ⟨some (m.extended sender member body),
      .stored sender member.nextSeq false :: if (m.member sender.opposite).isSome then
        [.deliver sender.opposite member.nextSeq body] else []⟩ := by
  have hnext := (h.member hmember).next
  have hsucc : checkedSucc member.nextSeq = some (member.nextSeq + 1) := by
    unfold checkedSucc
    rw [if_neg]
    intro hlast
    rw [hlast] at hnext
    simp only [maxFramesPerMembership, UInt8.reduceToNat] at hnext hroom
    omega
  have hqueue : checkedAdd64 m.queueBytes body.length = some (m.queueBytes + body.length) := by
    have hqueued := h.queued_le
    have hlength := hbody.2
    rw [← h.accounted] at hqueued
    unfold maxFrameBodyBytes at hlength
    exact if_pos (by omega)
  simp [store, hsucc, hqueue, expect, extended]

theorem put_answers (h : m.Recorded) (sender : Membership) (seq : UInt8) (body : Bytes) :
    Answers m (.put sender seq body) (m.put sender seq body) := by
  unfold put
  by_cases hbody : body = [] ∨ maxFrameBodyBytes < body.length
  · rw [if_pos hbody]
    exact .inl ⟨_, rfl⟩
  rw [if_neg hbody]
  have hadmissible : Admissible body := by
    rw [not_or, not_lt] at hbody
    exact hbody
  cases hmember : m.member sender with
  | none => exact .inl ⟨_, rfl⟩
  | some member =>
    dsimp only
    by_cases hused : seq < member.nextSeq
    · rw [if_pos hused]
      cases hframe : member.frames.find? (·.seq == seq) with
      | none => exact .inl ⟨_, rfl⟩
      | some frame =>
        dsimp only
        by_cases hsame : frame.bodyLen = body.length ∧ frame.digest = sha256 body
        · rw [if_pos hsame]
          exact (Moves.repeated hadmissible hmember hused hframe hsame.1 hsame.2).answers
        · rw [if_neg hsame]
          exact Ends.answers h (.conflict hadmissible hmember hused hframe hsame)
    · rw [if_neg hused]
      by_cases hgap : member.nextSeq < seq
      · rw [if_pos hgap]
        exact .inl ⟨_, rfl⟩
      rw [if_neg hgap]
      by_cases hlimit : maxFramesPerMembership ≤ seq.toNat ∨
          maxFramesPerMembership ≤ member.frames.length
      · rw [if_pos hlimit]
        exact .inl ⟨_, rfl⟩
      rw [if_neg hlimit]
      obtain rfl : seq = member.nextSeq :=
        UInt8.le_antisymm (UInt8.not_lt.mp hgap) (UInt8.not_lt.mp hused)
      rw [not_or, not_le, not_le] at hlimit
      rw [store_ok h hmember hadmissible hlimit.2]
      exact (Moves.stored hadmissible hmember hlimit.2).answers

omit [Primitives] in
theorem queued_le_of_mem {frame : FrameRecord} {frames : List FrameRecord} (h : frame ∈ frames) :
    frame.queued ≤ (frames.map FrameRecord.queued).sum := by
  induction frames with
  | nil => simp at h
  | cons f frames ih =>
    simp only [List.map_cons, List.sum_cons]
    rcases List.mem_cons.mp h with rfl | h
    · omega
    · have := ih h
      omega

omit [Primitives] in
theorem queued_member_le {owner : Membership} {member : MemberState}
    (h : m.member owner = some member) : member.queued ≤ m.queued := by
  unfold queued
  cases owner with
  | allocator =>
    obtain rfl := Option.some.inj h
    omega
  | claimant =>
    have hclaimant : m.claimant = some member := h
    rw [hclaimant, Option.elim_some]
    omega

theorem ack_answers (h : m.Recorded) (sender : Membership) (peerSeq : UInt8) :
    Answers m (.ack sender peerSeq) (m.ack sender peerSeq) := by
  unfold ack
  by_cases hsender : (m.member sender).isNone
  · rw [if_pos hsender]
    exact .inl ⟨_, rfl⟩
  rw [if_neg hsender]
  have hsome : (m.member sender).isSome = true := by
    rw [Option.isSome_iff_ne_none]
    simpa using hsender
  dsimp only
  cases hpeer : m.member sender.opposite with
  | none => exact .inl ⟨_, rfl⟩
  | some peer =>
    dsimp only
    cases hframe : peer.frames.find? (·.seq == peerSeq) with
    | none => exact .inl ⟨_, rfl⟩
    | some frame =>
      obtain rfl : frame.seq = peerSeq := by simpa using List.find?_some hframe
      have hmoves := Moves.acknowledged hsome hpeer hframe
      have hmem := List.mem_of_find?_eq_some hframe
      cases hbody : frame.body with
      | none =>
        have hzero : frame.queued = 0 := by simp [FrameRecord.queued, hbody]
        have hsame : m.acknowledged sender.opposite peer frame =
            m.setMember sender.opposite { peer with frames := dropBody frame.seq peer.frames } := by
          unfold acknowledged
          rw [hzero, Nat.sub_zero]
          cases sender.opposite <;> rfl
        rw [hsame, hbody] at hmoves
        simp only [hbody]
        exact hmoves.answers
      | some body =>
        have hqueued : frame.queued = frame.bodyLen := by simp [FrameRecord.queued, hbody]
        have hle : frame.bodyLen ≤ m.queueBytes := by
          have hframes : frame.queued ≤ peer.queued := queued_le_of_mem hmem
          have hmember := queued_member_le hpeer
          rw [hqueued] at hframes
          rw [h.accounted]
          omega
        have hsub : checkedSub64 m.queueBytes frame.bodyLen = some (m.queueBytes - frame.bodyLen) :=
          if_pos hle
        simp only [hbody, acknowledged, hqueued, Option.isSome_some, if_true] at hmoves
        simp only [hbody, hsub, expect, Calls.ok_bind]
        exact hmoves.answers

theorem close_answers (h : m.Recorded) (sender : Membership) :
    Answers m (.close sender) (m.close sender) := by
  unfold close
  by_cases hsender : (m.member sender).isNone
  · rw [if_pos hsender]
    exact .inl ⟨_, rfl⟩
  · rw [if_neg hsender]
    refine Ends.answers h (.closed ?_)
    rw [Option.isSome_iff_ne_none]
    simpa using hsender

theorem command_answers (h : m.Recorded) (c : MailboxCommand) : Answers m c (m.command c) := by
  cases c with
  | claim hash => exact claim_answers h hash
  | claimV2 hash token => exact claimV2_answers m hash token
  | openMailbox hash => exact openMailbox_answers m hash
  | put sender seq body => exact put_answers h sender seq body
  | ack sender peerSeq => exact ack_answers h sender peerSeq
  | close sender => exact close_answers h sender

/-- What a transition of a recorded mailbox does: an expired one is reaped, an
ended one refuses, and a live one answers the command. -/
inductive Outcome (m : Mailbox) (now : UInt64) (c : MailboxCommand) :
    Except (Fault MailboxError) MailboxTransition → Prop
  | reaped : m.expiresAt ≤ now → Outcome m now c (.ok ⟨none, m.deletions ++
      if m.status.isTerminal then [] else [.terminal .expired]⟩)
  | refused {e : MailboxError} : now < m.expiresAt → Outcome m now c (.error (.error e))
  | moved {effects : List MailboxEffect} {m' : Mailbox} : now < m.expiresAt →
      m.status.isTerminal = false → Moves m c effects m' →
      Outcome m now c (.ok ⟨some m', effects⟩)

theorem transition_outcome (h : m.Recorded) (now : UInt64) (c : MailboxCommand) :
    Outcome m now c (m.transition now c) := by
  unfold transition
  by_cases hexpired : m.expiresAt ≤ now
  · rw [if_pos hexpired, reap_ok m now h.accounted.ge hexpired]
    exact .reaped hexpired
  rw [if_neg hexpired]
  have hnow : now < m.expiresAt := UInt64.not_le.mp hexpired
  have hlive : m.status.isTerminal = false → Outcome m now c (m.command c) := by
    intro hstatus
    obtain ⟨e, hresult⟩ | ⟨effects, m', hresult, hmoves⟩ := command_answers h c
    · rw [hresult]
      exact .refused hnow
    · rw [hresult]
      exact .moved hnow hstatus hmoves
  cases hstatus : m.status with
  | terminal reason => exact .refused hnow
  | waiting => exact hlive (by rw [hstatus]; rfl)
  | paired => exact hlive (by rw [hstatus]; rfl)

/-! ### Moves keep the invariant -/

omit [Primitives] in
theorem setMember_queued {owner : Membership} {member : MemberState}
    (h : m.member owner = some member) (state : MemberState) :
    (m.setMember owner state).queued + member.queued = m.queued + state.queued := by
  cases owner with
  | allocator =>
    obtain rfl := Option.some.inj h
    simp only [setMember, queued]
    omega
  | claimant =>
    have hclaimant : m.claimant = some member := h
    simp only [setMember, queued, hclaimant, Option.map_some, Option.elim_some]
    omega

/-- Replacing one member's frames by sound ones, with the exact accounting. -/
theorem Recorded.setMember (h : m.Recorded) {owner : Membership} {member state : MemberState}
    (hmember : m.member owner = some member) (hstate : state.Sound) {queueBytes : ℕ}
    (hqueue : queueBytes + member.queued = m.queueBytes + state.queued) :
    { m.setMember owner state with queueBytes }.Recorded := by
  have hqueued := setMember_queued hmember state
  rw [h.accounted] at hqueue
  have haccounted : queueBytes = (m.setMember owner state).queued := by omega
  cases owner with
  | allocator =>
    exact ⟨h.nameplate, hstate, h.claimant, haccounted, h.waiting, h.paired, h.admission⟩
  | claimant =>
    have hclaimant : m.claimant = some member := hmember
    refine ⟨h.nameplate, h.allocator, ?_, haccounted, ?_, ?_, h.admission⟩
    · intro c hc
      simp only [Mailbox.setMember, hclaimant, Option.map_some, Option.mem_some_iff] at hc
      exact hc ▸ hstate
    · intro hwaiting
      exact absurd (h.waiting hwaiting) (by simp [hclaimant])
    · intro hpaired
      simp [Mailbox.setMember, hclaimant]

theorem extended_sound {s : MemberState} (h : s.Sound) {body : Bytes} (hbody : Admissible body)
    (hroom : s.frames.length < maxFramesPerMembership) :
    MemberState.Sound { s with
      frames := s.frames ++ [⟨s.nextSeq, sha256 body, body.length, some body⟩]
      nextSeq := s.nextSeq + 1 } := by
  refine ⟨?_, ?_, ?_, ?_⟩
  · simp [h.numbered, h.next, List.range_succ]
  · have hnext := h.next
    simp only [maxFramesPerMembership] at hroom
    simp only [UInt8.toNat_add, UInt8.reduceToNat, List.length_append, List.length_singleton]
    omega
  · simp only [List.length_append, List.length_singleton]
    omega
  · intro f hf
    rcases List.mem_append.mp hf with hf | hf
    · exact h.frames f hf
    · obtain rfl := List.mem_singleton.mp hf
      have hpos := List.length_pos_iff.mpr hbody.1
      exact ⟨hpos, hbody.2, by simp⟩

omit [Primitives] in
theorem extended_queued (s : MemberState) (body : Bytes) (digest : Octets 32) (next : UInt8) :
    MemberState.queued { s with
      frames := s.frames ++ [⟨s.nextSeq, digest, body.length, some body⟩], nextSeq := next } =
      s.queued + body.length := by
  simp [MemberState.queued, FrameRecord.queued]

section DropBody

variable {frames : List FrameRecord} {frame : FrameRecord}

omit [Primitives] in
theorem dropBody_numbers (seq : UInt8) (frames : List FrameRecord) :
    (dropBody seq frames).map FrameRecord.seq = frames.map FrameRecord.seq := by
  induction frames with
  | nil => rfl
  | cons f frames ih =>
    unfold dropBody
    split_ifs <;> simp [ih]

omit [Primitives] in
theorem dropBody_queued (h : frames.find? (·.seq == frame.seq) = some frame) :
    ((dropBody frame.seq frames).map FrameRecord.queued).sum + frame.queued =
      (frames.map FrameRecord.queued).sum := by
  induction frames with
  | nil => simp at h
  | cons f frames ih =>
    unfold dropBody
    by_cases hseq : f.seq = frame.seq
    · obtain rfl : f = frame := by simpa [hseq] using h
      simp [FrameRecord.queued, Nat.add_comm]
    · have hrest := ih (by simpa [hseq] using h)
      simp only [if_neg hseq, List.map_cons, List.sum_cons]
      omega

theorem dropBody_sound (seq : UInt8) (h : ∀ f ∈ frames, f.Sound) :
    ∀ f ∈ dropBody seq frames, f.Sound := by
  induction frames with
  | nil => exact h
  | cons g frames ih =>
    have hhead := h g List.mem_cons_self
    have hrest := fun f hf => h f (List.mem_cons_of_mem g hf)
    unfold dropBody
    split_ifs
    · intro f hf
      rcases List.mem_cons.mp hf with rfl | hf
      · exact ⟨hhead.pos, hhead.le, by simp⟩
      · exact hrest f hf
    · intro f hf
      rcases List.mem_cons.mp hf with rfl | hf
      · exact hhead
      · exact ih hrest f hf

theorem dropped_sound {s : MemberState} (h : s.Sound) (seq : UInt8) :
    MemberState.Sound { s with frames := dropBody seq s.frames } := by
  have hnumbers := dropBody_numbers seq s.frames
  have hlength : (dropBody seq s.frames).length = s.frames.length := by
    have := congrArg List.length hnumbers
    simpa using this
  refine ⟨?_, ?_, ?_, dropBody_sound seq h.frames⟩
  · have hnumbered := h.numbered
    have hmap : ∀ frames : List FrameRecord, frames.map (fun f => f.seq.toNat) =
        (frames.map FrameRecord.seq).map UInt8.toNat := by simp
    rw [hmap] at hnumbered ⊢
    rw [hnumbers, hnumbered, hlength]
  · rw [h.next, hlength]
  · rw [hlength]
    exact h.bounded

end DropBody

theorem erased_sound {s : MemberState} (h : s.Sound) : s.erased.Sound := by
  refine ⟨?_, ?_, ?_, ?_⟩
  · simpa [MemberState.erased, FrameRecord.erased, Function.comp_def] using h.numbered
  · simpa [MemberState.erased] using h.next
  · simpa [MemberState.erased] using h.bounded
  · intro f hf
    obtain ⟨g, hg, rfl⟩ := List.mem_map.mp hf
    exact ⟨(h.frames g hg).pos, (h.frames g hg).le, by simp [FrameRecord.erased]⟩

omit [Primitives] in
theorem erased_queued (m : Mailbox) : m.erased.queued = 0 := by
  have hmember : ∀ s : MemberState, s.erased.queued = 0 := by
    intro s
    simp [MemberState.erased, MemberState.queued, FrameRecord.erased, FrameRecord.queued,
      Function.comp_def]
  unfold queued erased
  cases m.claimant with
  | none => simp [hmember]
  | some claimant => simp [hmember]

theorem ended_recorded (h : m.Recorded) (reason : CloseReason) : (m.ended reason).Recorded := by
  have hzero : m.queueBytes - m.queued = 0 := by
    rw [h.accounted]
    omega
  refine ⟨h.nameplate, erased_sound h.allocator, ?_, ?_, by simp [ended], by simp [ended], ?_⟩
  · intro c hc
    simp only [ended, erased, Option.mem_map] at hc
    obtain ⟨claimant, hclaimant, rfl⟩ := hc
    exact erased_sound (h.claimant claimant hclaimant)
  · exact hzero.trans (erased_queued m).symm
  · have hadmission := h.admission
    by_cases hv1 : m.admission = .v1
    · simp [ended, hv1, admissionFits]
    · have hnameplate : m.nameplate.isNone = true := by
        unfold admissionFits at hadmission
        split at hadmission <;> simp_all
      simp only [ended, if_neg hv1, admissionFits]
      exact hnameplate

theorem joined_recorded (h : m.Recorded) (hash : MembershipHash) (admission : Admission)
    (hnone : m.claimant = none) (hfits : admissionFits admission .paired m.nameplate = true) :
    { m with claimant := some (newMember hash), status := .paired, admission }.Recorded := by
  have hmember : (newMember hash).Sound := ⟨rfl, rfl, by simp [newMember], by simp [newMember]⟩
  refine ⟨h.nameplate, h.allocator, ?_, ?_, by simp, by simp, hfits⟩
  · intro c hc
    obtain rfl := Option.some.inj hc
    exact hmember
  · have haccounted := h.accounted
    simpa [queued, hnone, newMember, MemberState.queued] using haccounted

theorem Moves.recorded {c : MailboxCommand} {effects : List MailboxEffect} {m' : Mailbox}
    (hmoves : Moves m c effects m') (h : m.Recorded) : m'.Recorded := by
  cases hmoves with
  | @claimed hash hadmission _ hnone =>
    have hjoined := joined_recorded h hash .v1 hnone rfl
    rw [← hadmission] at hjoined
    exact hjoined
  | claimedV2 hadmission _ hnone =>
    refine joined_recorded h _ .v2Claimed hnone ?_
    have hfits := h.admission
    rw [hadmission] at hfits
    unfold admissionFits at hfits
    cases hstatus : m.status with
    | waiting =>
      rw [hstatus] at hfits
      exact hfits
    | paired => simp [hstatus] at hfits
    | terminal reason => simp [hstatus] at hfits
  | opened => exact h
  | repeated => exact h
  | @stored sender member body hbody hmember hroom =>
    refine h.setMember hmember (extended_sound (h.member hmember) hbody hroom) ?_
    rw [extended_queued]
    omega
  | @acknowledged sender member frame _ hmember hframe =>
    refine h.setMember hmember (dropped_sound (h.member hmember) frame.seq) ?_
    have hdropped : MemberState.queued { member with frames := dropBody frame.seq member.frames } +
        frame.queued = member.queued := dropBody_queued hframe
    have hmember := queued_member_le hmember
    rw [h.accounted]
    omega
  | ended => exact ended_recorded h _

omit [Primitives] in
theorem setMember_hashes {owner : Membership} {member state : MemberState}
    (hmember : m.member owner = some member) (hhash : state.hash = member.hash) :
    (m.setMember owner state).membershipHashes = m.membershipHashes := by
  cases owner with
  | allocator =>
    obtain rfl := Option.some.inj hmember
    simp [setMember, membershipHashes, hhash]
  | claimant =>
    have hclaimant : m.claimant = some member := hmember
    simp [setMember, membershipHashes, hclaimant, hhash]

/-- The members of a mailbox are who joined it, and a claim adds the claimant. -/
theorem Moves.hashes {c : MailboxCommand} {effects : List MailboxEffect} {m' : Mailbox}
    (hmoves : Moves m c effects m') :
    m'.membershipHashes = m.membershipHashes ∨ ∃ hash, m.claimant = none ∧
      hash ≠ m.allocator.hash ∧ m'.membershipHashes = [m.allocator.hash, hash] ∧
      (c = .claim hash ∨ ∃ token, c = .claimV2 hash token) := by
  cases hmoves with
  | @claimed hash _ hne hnone => exact .inr ⟨hash, hnone, hne, rfl, .inl rfl⟩
  | @claimedV2 hash token _ hne hnone => exact .inr ⟨hash, hnone, hne, rfl, .inr ⟨token, rfl⟩⟩
  | opened => exact .inl rfl
  | repeated => exact .inl rfl
  | stored _ hmember _ => exact .inl (setMember_hashes hmember rfl)
  | acknowledged _ hmember _ => exact .inl (setMember_hashes hmember rfl)
  | ended =>
    refine .inl ?_
    cases hclaimant : m.claimant <;>
      simp [Mailbox.ended, erased, membershipHashes, hclaimant, MemberState.erased]

omit [Primitives] in
theorem distinct_iff : (∀ c ∈ m.claimant, m.allocator.hash ≠ c.hash) ↔
    m.membershipHashes.Nodup := by
  cases hclaimant : m.claimant <;> simp [membershipHashes, hclaimant]

omit [Primitives] in
@[simp] theorem setMember_status (owner : Membership) (state : MemberState) :
    (m.setMember owner state).status = m.status := by
  cases owner <;> rfl

omit [Primitives] in
@[simp] theorem setMember_admission (owner : Membership) (state : MemberState) :
    (m.setMember owner state).admission = m.admission := by
  cases owner <;> rfl

omit [Primitives] in
@[simp] theorem setMember_expiresAt (owner : Membership) (state : MemberState) :
    (m.setMember owner state).expiresAt = m.expiresAt := by
  cases owner <;> rfl

omit [Primitives] in
@[simp] theorem setMember_mailboxId (owner : Membership) (state : MemberState) :
    (m.setMember owner state).mailboxId = m.mailboxId := by
  cases owner <;> rfl

omit [Primitives] in
@[simp] theorem setMember_nameplate (owner : Membership) (state : MemberState) :
    (m.setMember owner state).nameplate = m.nameplate := by
  cases owner <;> rfl

section Kept

variable {c : MailboxCommand} {effects : List MailboxEffect} {m' : Mailbox}

/-- A command never changes what the mailbox was allocated with. -/
theorem Moves.kept (h : Moves m c effects m') :
    m'.mailboxId = m.mailboxId ∧ m'.nameplate = m.nameplate ∧ m'.expiresAt = m.expiresAt := by
  cases h <;> simp [Mailbox.extended, Mailbox.acknowledged, Mailbox.ended, erased]

/-- Only a put makes the queue longer. -/
theorem Moves.queueBytes_le (h : Moves m c effects m')
    (hput : ∀ sender seq body, c ≠ .put sender seq body) : m'.queueBytes ≤ m.queueBytes := by
  cases h with
  | stored => exact absurd rfl (hput _ _ _)
  | acknowledged => exact Nat.sub_le _ _
  | ended => exact Nat.sub_le _ _
  | _ => exact Nat.le_refl _

theorem Moves.queueBytes_put {sender : Membership} {seq : UInt8} {body : Bytes}
    (h : Moves m (.put sender seq body) effects m') :
    m'.queueBytes ≤ m.queueBytes + body.length := by
  cases h with
  | stored => exact Nat.le_refl _
  | repeated => exact Nat.le_add_right _ _
  | ended => exact le_trans (Nat.sub_le _ _) (Nat.le_add_right _ _)

theorem Moves.admission_v1 (h : Moves m c effects m') :
    m'.admission = .v1 ↔ m.admission = .v1 := by
  cases h with
  | claimedV2 hadmission => simp [hadmission]
  | ended =>
    by_cases hv1 : m.admission = .v1
    · simp [Mailbox.ended, hv1]
    · simp [Mailbox.ended, hv1]
  | _ => simp [Mailbox.extended, Mailbox.acknowledged]

/-- A live mailbox only becomes terminal by ending. -/
theorem Moves.ended_of_terminal (h : Moves m c effects m') (hlive : m.status.isTerminal = false)
    (hterminal : m'.status.isTerminal = true) :
    ∃ reason, Ends m c reason ∧ m' = m.ended reason ∧
      effects = m.deletions ++ [.terminal reason] := by
  cases h with
  | ended hends => exact ⟨_, hends, rfl, rfl⟩
  | claimed => simp [MailboxStatus.isTerminal] at hterminal
  | claimedV2 => simp [MailboxStatus.isTerminal] at hterminal
  | _ => simp [Mailbox.extended, Mailbox.acknowledged, hlive] at hterminal

omit [Primitives] in
theorem framesOf_erased (owner : Membership) :
    m.erased.framesOf owner = (m.framesOf owner).map FrameRecord.erased := by
  cases owner with
  | allocator => rfl
  | claimant =>
    cases hclaimant : m.claimant <;>
      simp [framesOf, member, erased, hclaimant, MemberState.erased]

omit [Primitives] in
theorem framesOf_setMember {owner : Membership} {member : MemberState}
    (h : m.member owner = some member) (state : MemberState) (other : Membership) :
    (m.setMember owner state).framesOf other =
      if other = owner then state.frames else m.framesOf other := by
  cases owner with
  | allocator =>
    cases other with
    | allocator => rfl
    | claimant => rfl
  | claimant =>
    have hclaimant : m.claimant = some member := h
    cases other with
    | allocator => rfl
    | claimant => simp [setMember, framesOf, Mailbox.member, hclaimant]

omit [Primitives] in
theorem framesOf_of_member {owner : Membership} {member : MemberState}
    (h : m.member owner = some member) : m.framesOf owner = member.frames := by
  simp [framesOf, h]

omit [Primitives] in
theorem mem_deletions {effect : MailboxEffect} (h : effect ∈ m.deletions) :
    ∃ owner seq, effect = .bodyDeleted owner seq := by
  have hmember : ∀ (owner : Membership) (s : MemberState), effect ∈ s.deletions owner →
      ∃ owner seq, effect = .bodyDeleted owner seq := by
    intro owner s hmem
    obtain ⟨frame, -, hframe⟩ := List.mem_filterMap.mp hmem
    obtain ⟨body, -, rfl⟩ := Option.map_eq_some_iff.mp hframe
    exact ⟨owner, frame.seq, rfl⟩
  unfold deletions at h
  rcases List.mem_append.mp h with h | h
  · exact hmember .allocator _ h
  · cases hclaimant : m.claimant with
    | none => simp [hclaimant] at h
    | some claimant =>
      rw [hclaimant] at h
      exact hmember .claimant claimant h

omit [Primitives] in
theorem deliver_not_mem_deletions (recipient : Membership) (seq : UInt8) (body : Bytes) :
    .deliver recipient seq body ∉ m.deletions := by
  intro hmem
  obtain ⟨owner, deleted, hsame⟩ := mem_deletions hmem
  cases hsame

/-- Whatever is delivered is queued afterwards with the other member. -/
theorem Moves.delivered_queued (h : Moves m c effects m') {recipient : Membership} {seq : UInt8}
    {body : Bytes} (hmem : .deliver recipient seq body ∈ effects) :
    ∃ f ∈ m'.framesOf recipient.opposite, f.seq = seq ∧ f.body = some body := by
  cases h with
  | claimed | claimedV2 | repeated => simp at hmem
  | @opened hash membership =>
    rw [List.mem_cons] at hmem
    obtain hmem | hmem := hmem
    · cases hmem
    obtain ⟨f, hf, hdeliver⟩ := List.mem_filterMap.mp hmem
    obtain ⟨queued, hbody, hsame⟩ := Option.map_eq_some_iff.mp hdeliver
    obtain ⟨rfl, rfl, rfl⟩ := MailboxEffect.deliver.inj hsame
    exact ⟨f, hf, rfl, hbody⟩
  | @stored sender member body' _ hmember =>
    rw [List.mem_cons] at hmem
    obtain hmem | hmem := hmem
    · cases hmem
    split_ifs at hmem
    · obtain ⟨rfl, rfl, rfl⟩ := MailboxEffect.deliver.inj (List.mem_singleton.mp hmem)
      have hframes : (m.extended sender member body).framesOf sender =
          member.frames ++ [⟨member.nextSeq, sha256 body, body.length, some body⟩] := by
        have hset := framesOf_setMember hmember { member with
          frames := member.frames ++ [⟨member.nextSeq, sha256 body, body.length, some body⟩]
          nextSeq := member.nextSeq + 1 } sender
        rw [if_pos rfl] at hset
        exact hset
      rw [Side.opposite_opposite, hframes]
      exact ⟨_, List.mem_append_right _ (List.mem_singleton.mpr rfl), rfl, rfl⟩
    · cases hmem
  | acknowledged =>
    split_ifs at hmem
    · simp at hmem
    · cases hmem
  | ended =>
    rw [List.mem_append] at hmem
    obtain hmem | hmem := hmem
    · exact absurd hmem (deliver_not_mem_deletions recipient seq body)
    · simp at hmem

theorem Moves.sound (h : Moves m c effects m') (hsound : m.Sound)
    (hlive : m.status.isTerminal = false) : m'.Sound := by
  refine ⟨h.recorded hsound.toRecorded, ?_, ?_⟩
  · rw [distinct_iff]
    have hdistinct := distinct_iff.mp hsound.distinct
    obtain hsame | ⟨hash, -, hne, hjoined, -⟩ := h.hashes
    · rw [hsame]
      exact hdistinct
    · rw [hjoined]
      simpa using hne.symm
  · intro hterminal
    obtain ⟨reason, -, rfl, -⟩ := h.ended_of_terminal hlive hterminal
    constructor
    · show m.queueBytes - m.queued = 0
      rw [hsound.accounted]
      omega
    · intro owner f hf
      have hframes : (m.ended reason).framesOf owner = m.erased.framesOf owner := rfl
      rw [hframes, framesOf_erased] at hf
      obtain ⟨g, -, rfl⟩ := List.mem_map.mp hf
      rfl

end Kept

end Mailbox

end CbclPairing
