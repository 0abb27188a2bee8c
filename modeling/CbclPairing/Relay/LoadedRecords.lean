import CbclPairing.Relay.Loader

/-! Which stored records the decoder turns into mailboxes that commands could have
reached: it compares neither the member hashes of a record nor its bodies with its
status. -/
namespace CbclPairing
open Codec Calls

variable [Primitives]

/-- A mailbox as its own commands leave it. -/
def Mailbox.Live (m : Mailbox) : Prop := m.Sound ∧ Mailbox.Staged m m

/-- The member hashes of a record differ, and an ended mailbox keeps no body. -/
structure MailboxSnapshot.Intact (s : MailboxSnapshot) : Prop where
  distinct : s.membershipHashes.Nodup
  emptied : s.status.isTerminal = true → ∀ q ∈ s.sequences, q.body = none

/-- The snapshot written in a record is intact. -/
def Store.Intact (record : Bytes) : Prop :=
  ∃ value rest s, Cbor.decodeItem Cbor.maxDepth record = .ok (value, rest) ∧
    Store.decodeSnapshot value = .ok s ∧ s.Intact

namespace MailboxSnapshot

variable {s : MailboxSnapshot}

/-- A member keeps a body exactly when one of its sequences does. -/
theorem member_bodies {owner : Membership} {hash : MembershipHash} {state : MemberState}
    (h : s.member owner hash = .ok state) :
    (∀ f ∈ state.frames, f.body = none) ↔
      ∀ q ∈ s.sequences, q.owner = owner → q.body = none := by
  unfold member at h
  simp only [guard_eq_ok, except_bind_eq_ok] at h
  obtain ⟨-, frames, hread, -, hstate⟩ := h
  obtain rfl := Except.ok.inj hstate
  have hsorted : ∀ q, q ∈ (s.sequences.filter (·.owner = owner)).mergeSort
      (fun p q => p.seq ≤ q.seq) ↔ q ∈ s.sequences ∧ q.owner = owner := by
    intro q
    simp
  constructor
  · intro hnone q hq howner
    obtain ⟨f, hf, hframe⟩ := mapM_mem_left hread ((hsorted q).mpr ⟨hq, howner⟩)
    rw [← (frame_sound hframe).2.2]
    exact hnone f hf
  · intro hnone f hf
    obtain ⟨q, hq, hframe⟩ := mapM_mem hread hf
    obtain ⟨hmem, howner⟩ := (hsorted q).mp hq
    rw [(frame_sound hframe).2.2]
    exact hnone q hmem howner

end MailboxSnapshot

namespace Mailbox

variable {s : MailboxSnapshot} {m : Mailbox}

theorem Rebuilt.bodies (h : Rebuilt s m) :
    (∀ owner, ∀ f ∈ m.framesOf owner, f.body = none) ↔ ∀ q ∈ s.sequences, q.body = none := by
  have hallocator := MailboxSnapshot.member_bodies h.allocator
  constructor
  · intro hnone q hq
    cases howner : q.owner with
    | allocator => exact hallocator.mp (hnone .allocator) q hq howner
    | claimant =>
      cases hclaimant : m.claimant with
      | none =>
        rw [h.unclaimed hclaimant q hq] at howner
        cases howner
      | some c =>
        have hframes : m.framesOf .claimant = c.frames := framesOf_of_member hclaimant
        have hbodies := MailboxSnapshot.member_bodies (h.claimant c hclaimant)
        exact hbodies.mp (hframes ▸ hnone .claimant) q hq howner
  · intro hnone owner f hf
    cases owner with
    | allocator => exact hallocator.mpr (fun q hq _ => hnone q hq) f hf
    | claimant =>
      cases hclaimant : m.claimant with
      | none => simp [framesOf, member, hclaimant] at hf
      | some c =>
        have hframes : m.framesOf .claimant = c.frames := framesOf_of_member hclaimant
        rw [hframes] at hf
        have hbodies := MailboxSnapshot.member_bodies (h.claimant c hclaimant)
        exact hbodies.mpr (fun q hq _ => hnone q hq) f hf

omit [Primitives] in
theorem queued_eq_zero (h : ∀ owner, ∀ f ∈ m.framesOf owner, f.body = none) : m.queued = 0 := by
  have hmember : ∀ state : MemberState, (∀ f ∈ state.frames, f.body = none) →
      state.queued = 0 := by
    intro state hnone
    unfold MemberState.queued
    rw [List.sum_eq_zero_iff]
    intro n hn
    obtain ⟨f, hf, rfl⟩ := List.mem_map.mp hn
    simp [FrameRecord.queued, hnone f hf]
  unfold queued
  rw [hmember m.allocator (h .allocator), Nat.zero_add]
  cases hclaimant : m.claimant with
  | none => rfl
  | some c =>
    have hframes : m.framesOf .claimant = c.frames := framesOf_of_member hclaimant
    exact hmember c (hframes ▸ h .claimant)

/-- A rebuilt mailbox is live exactly when its snapshot is intact. -/
theorem Rebuilt.live_iff (h : Rebuilt s m) : m.Live ↔ s.Intact := by
  constructor
  · rintro ⟨hsound, _⟩
    constructor
    · rw [← h.hashes]
      exact distinct_iff.mp hsound.distinct
    · intro hterminal
      rw [← h.status] at hterminal
      exact h.bodies.mp (hsound.emptied hterminal).2
  · rintro ⟨hdistinct, hemptied⟩
    have hrecorded := h.recorded
    refine ⟨⟨hrecorded, ?_, ?_⟩, hrecorded.staged Iff.rfl⟩
    · rw [distinct_iff, h.hashes]
      exact hdistinct
    · intro hterminal
      rw [h.status] at hterminal
      have hnone := h.bodies.mpr (hemptied hterminal)
      rw [h.queueBytes]
      exact ⟨queued_eq_zero hnone, hnone⟩

end Mailbox

/-- The mailbox of an accepted record is one its commands could have left exactly when
the record names different members and an ended mailbox in it keeps no body. -/
theorem Store.loaded_live_iff {record : Bytes} {m : Mailbox} (h : decode record = .ok m) :
    m.Live ↔ Intact record := by
  obtain ⟨value, rest, s, hitem, hs, hm⟩ := decode_eq_ok h
  rw [(Mailbox.fromSnapshot_rebuilt hm).live_iff]
  constructor
  · intro hintact
    exact ⟨value, rest, s, hitem, hs, hintact⟩
  · rintro ⟨value', rest', s', hitem', hs', hintact⟩
    rw [hitem] at hitem'
    obtain ⟨rfl, rfl⟩ := Prod.mk.inj (Except.ok.inj hitem')
    rw [hs] at hs'
    obtain rfl := Except.ok.inj hs'
    exact hintact

end CbclPairing

namespace CbclPairing
open Codec Calls

attribute [local instance] Primitives.transparent

/-- A paired record that names one member twice. -/
def MailboxSnapshot.twins : MailboxSnapshot where
  mailboxId := fill 32 [1]
  nameplate := none
  expiresAt := 600
  status := .paired
  admission := .v1
  membershipHashes := [fill 32 [2], fill 32 [2]]
  sequences := []

/-- An ended record that still holds a body. -/
def MailboxSnapshot.hoard : MailboxSnapshot where
  mailboxId := fill 32 [1]
  nameplate := none
  expiresAt := 600
  status := .terminal .closed
  admission := .v1
  membershipHashes := [fill 32 [2]]
  sequences := [⟨.allocator, 0, fill 32 [9], 1, some [9]⟩]

def Mailbox.twins : Mailbox where
  mailboxId := fill 32 [1]
  nameplate := none
  expiresAt := 600
  status := .paired
  admission := .v1
  allocator := Mailbox.newMember (fill 32 [2])
  claimant := some (Mailbox.newMember (fill 32 [2]))
  queueBytes := 0

def Mailbox.hoard : Mailbox where
  mailboxId := fill 32 [1]
  nameplate := none
  expiresAt := 600
  status := .terminal .closed
  admission := .v1
  allocator := ⟨fill 32 [2], 1, [⟨0, fill 32 [9], 1, some [9]⟩]⟩
  claimant := none
  queueBytes := 1

theorem MailboxSnapshot.twins_decoded :
    (Store.encode MailboxSnapshot.twins >>= Store.decode) = .ok Mailbox.twins := by
  refine Store.decode_encode ⟨?_, ?_, ?_, ?_, ?_⟩ ?_
  case refine_6 =>
    simp [Mailbox.fromSnapshot, MailboxSnapshot.twins, MailboxSnapshot.admits,
      MailboxSnapshot.member, Mailbox.twins, Mailbox.newMember]
  all_goals simp [MailboxSnapshot.twins]

theorem MailboxSnapshot.hoard_decoded :
    (Store.encode MailboxSnapshot.hoard >>= Store.decode) = .ok Mailbox.hoard := by
  refine Store.decode_encode ⟨?_, ?_, ?_, ?_, ?_⟩ ?_
  case refine_6 =>
    have hframe : MailboxSnapshot.frame ⟨.allocator, 0, fill 32 [9], 1, some [9]⟩ =
        .ok ⟨0, fill 32 [9], 1, some [9]⟩ := rfl
    simp [Mailbox.fromSnapshot, MailboxSnapshot.hoard, MailboxSnapshot.admits,
      MailboxSnapshot.member, Mailbox.hoard, hframe, maxFramesPerMembership]
  all_goals simp [MailboxSnapshot.hoard]

/-- The decoder accepts a record with one member twice, and an ended one with a body. -/
theorem Store.damaged_records_load :
    ((Store.encode MailboxSnapshot.twins >>= Store.decode) = .ok Mailbox.twins ∧
      ¬ Mailbox.twins.Live) ∧
    ((Store.encode MailboxSnapshot.hoard >>= Store.decode) = .ok Mailbox.hoard ∧
      ¬ Mailbox.hoard.Live) := by
  refine ⟨⟨MailboxSnapshot.twins_decoded, ?_⟩, MailboxSnapshot.hoard_decoded, ?_⟩
  · rintro ⟨hsound, _⟩
    exact hsound.distinct _ rfl rfl
  · rintro ⟨hsound, _⟩
    cases (hsound.emptied rfl).1

theorem Store.loaded_live_iff_sample :
    ∃ record, Store.encode Mailbox.sample.snapshot = .ok record ∧
      Store.decode record = .ok Mailbox.sample ∧
      (Mailbox.sample.Live ↔ Store.Intact record) := by
  have hrecorded := Mailbox.allocate_sample.fresh.1.toRecorded
  obtain ⟨record, hrecord, hdecode⟩ := except_bind_eq_ok.mp hrecorded.decode_encode
  exact ⟨record, hrecord, hdecode, Store.loaded_live_iff hdecode⟩

end CbclPairing
