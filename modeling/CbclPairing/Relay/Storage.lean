import CbclPairing.Relay.MailboxRuns

/-! The stored record of a mailbox: its snapshot, the canonical encoding of a
snapshot, and the decoder that admits it again. -/
namespace CbclPairing
open Codec Codec.Cbor Calls

structure SequenceSnapshot where
  owner : Membership
  seq : UInt8
  bodyDigest : Octets 32
  bodyLen : ℕ
  body : Option Bytes
  deriving DecidableEq

structure MailboxSnapshot where
  mailboxId : Octets 32
  nameplate : Option ℕ
  expiresAt : UInt64
  status : MailboxStatus
  admission : Admission
  membershipHashes : List MembershipHash
  sequences : List SequenceSnapshot
  deriving DecidableEq

inductive StoreError where
  | io
  | malformed
  | conflict
  deriving DecidableEq

namespace Mailbox

def sequencesOf (owner : Membership) (s : MemberState) : List SequenceSnapshot :=
  s.frames.map fun f => ⟨owner, f.seq, f.digest, f.bodyLen, f.body⟩

def snapshot (m : Mailbox) : MailboxSnapshot where
  mailboxId := m.mailboxId
  nameplate := m.nameplate
  expiresAt := m.expiresAt
  status := m.status
  admission := m.admission
  membershipHashes := m.membershipHashes
  sequences := sequencesOf .allocator m.allocator ++ m.claimant.elim [] (sequencesOf .claimant)

end Mailbox

/-! ### Reconstruction -/

namespace MailboxSnapshot

/-- The admission goes with the status, the nameplate and the number of members. -/
def admits (s : MailboxSnapshot) : Bool :=
  match s.admission, s.status with
  | .v1, _ => true
  | .v2Pending _, .waiting => s.nameplate.isNone && s.membershipHashes.length == 1
  | .v2Claimed, .paired => s.nameplate.isNone && s.membershipHashes.length == 2
  | .v2Closed, .terminal _ => s.nameplate.isNone
  | _, _ => false

variable [Primitives]

def frame (q : SequenceSnapshot) : Except MailboxError FrameRecord :=
  if q.bodyLen = 0 ∨ maxFrameBodyBytes < q.bodyLen then .error .invalidSnapshot
  else if q.body.any fun body => body.length ≠ q.bodyLen ∨ sha256 body ≠ q.bodyDigest then
    .error .invalidSnapshot
  else .ok ⟨q.seq, q.bodyDigest, q.bodyLen, q.body⟩

def member (s : MailboxSnapshot) (owner : Membership) (hash : MembershipHash) :
    Except MailboxError MemberState := do
  let sequences := (s.sequences.filter (·.owner = owner)).mergeSort fun p q => p.seq ≤ q.seq
  if maxFramesPerMembership < sequences.length ∨
      sequences.zipIdx.any fun (q, index) => q.seq.toNat ≠ index then .error .invalidSnapshot
  else do
    let frames ← sequences.mapM frame
    if 255 < frames.length then .error .invalidSnapshot
    else .ok ⟨hash, UInt8.ofNat frames.length, frames⟩

end MailboxSnapshot

variable [Primitives]

/-- Reconstruct validated state from the persistence boundary. -/
def Mailbox.fromSnapshot (s : MailboxSnapshot) : Except MailboxError Mailbox :=
  if s.nameplate.any (999999999 < ·) ∨ s.membershipHashes.length = 0 ∨
      2 < s.membershipHashes.length then .error .invalidSnapshot
  else if s.status = .waiting ∧ s.membershipHashes.length ≠ 1 then .error .invalidSnapshot
  else if s.status = .paired ∧ s.membershipHashes.length ≠ 2 then .error .invalidSnapshot
  else if !s.admits then .error .invalidSnapshot
  else
    match s.membershipHashes with
    | [] => .error .invalidSnapshot
    | hash :: hashes => do
      let allocator ← s.member .allocator hash
      let claimant ←
        match hashes.head? with
        | none => .ok none
        | some hash => some <$> s.member .claimant hash
      if s.sequences.any fun q => q.owner = .claimant ∧ claimant.isNone then
        .error .invalidSnapshot
      else
        let frames := allocator.frames ++ claimant.elim [] MemberState.frames
        .ok
          { mailboxId := s.mailboxId, nameplate := s.nameplate, expiresAt := s.expiresAt
            status := s.status, admission := s.admission, allocator, claimant
            queueBytes := ((frames.filter (·.body.isSome)).map FrameRecord.bodyLen).sum }

/-! ### Encoding -/

namespace Store

def domainV1 : Bytes := ascii "cbcl-pairing-mailbox-store/v1"
def domainV2 : Bytes := ascii "cbcl-pairing-mailbox-store/v2"

def membershipNumber : Membership → ℕ
  | .allocator => 0
  | .claimant => 1

def closeNumber : CloseReason → ℕ
  | .closed => 0
  | .crowded => 1
  | .expired => 2
  | .conflict => 3

def encodeStatus : MailboxStatus → Value
  | .waiting => .array [.integer 0]
  | .paired => .array [.integer 1]
  | .terminal reason => .array [.integer 2, .integer (closeNumber reason)]

def encodeAdmission : Admission → Value
  | .v1 => .array [.integer 0]
  | .v2Pending commitment => .array [.integer 1, .bytes commitment.val]
  | .v2Claimed => .array [.integer 2]
  | .v2Closed => .array [.integer 3]

def optionalBytes : Option Bytes → Value
  | none => .null
  | some bytes => .bytes bytes

def optionalInteger : Option ℕ → Value
  | none => .null
  | some n => .integer n

def sequenceValue (q : SequenceSnapshot) : Value :=
  .array [.integer (membershipNumber q.owner), .integer q.seq.toNat, .bytes q.bodyDigest.val,
    .integer q.bodyLen, optionalBytes q.body]

def encodeSequence (q : SequenceSnapshot) : Except StoreError Value :=
  if 2 ^ 64 ≤ q.bodyLen then .error .malformed else .ok (sequenceValue q)

def recordValue (s : MailboxSnapshot) (sequences : List Value) : Value :=
  let record := [.text (if s.admission = .v1 then domainV1 else domainV2),
    .bytes s.mailboxId.val, optionalInteger s.nameplate, .integer s.expiresAt.toNat,
    encodeStatus s.status, .array (s.membershipHashes.map fun hash => .bytes hash.val),
    .array sequences]
  .array (if s.admission = .v1 then record else record ++ [encodeAdmission s.admission])

def encode (s : MailboxSnapshot) : Except StoreError Bytes := do
  let sequences ← s.sequences.mapM encodeSequence
  .ok (toCanonicalVec (recordValue s sequences))

/-! ### Decoding -/

def integer (v : Value) : Except StoreError ℕ :=
  match v.asUint with
  | some n => .ok n
  | none => .error .malformed

/-- `TryInto` an unsigned integer below a bound. -/
def narrow (bound n : ℕ) : Except StoreError ℕ := if n < bound then .ok n else .error .malformed

def fixed (length : ℕ) (v : Value) : Except StoreError (Octets length) :=
  match v.asBytes.bind (Octets.ofList? length) with
  | some bytes => .ok bytes
  | none => .error .malformed

def array (v : Value) : Except StoreError (List Value) :=
  match v.asArray with
  | some items => .ok items
  | none => .error .malformed

def closeReason : ℕ → Except StoreError CloseReason
  | 0 => .ok .closed
  | 1 => .ok .crowded
  | 2 => .ok .expired
  | 3 => .ok .conflict
  | _ => .error .malformed

def decodeAdmission (v : Value) : Except StoreError Admission := do
  match ← array v with
  | [kind] =>
    match ← integer kind with
    | 0 => .ok .v1
    | 2 => .ok .v2Claimed
    | 3 => .ok .v2Closed
    | _ => .error .malformed
  | [kind, commitment] =>
    if (← integer kind) = 1 then .v2Pending <$> fixed 32 commitment else .error .malformed
  | _ => .error .malformed

def decodeStatus (v : Value) : Except StoreError MailboxStatus := do
  match ← array v with
  | [kind] =>
    match ← integer kind with
    | 0 => .ok .waiting
    | 1 => .ok .paired
    | _ => .error .malformed
  | [kind, reason] =>
    if (← integer kind) = 2 then .terminal <$> (integer reason >>= closeReason)
    else .error .malformed
  | _ => .error .malformed

def decodeOwner : ℕ → Except StoreError Membership
  | 0 => .ok .allocator
  | 1 => .ok .claimant
  | _ => .error .malformed

def decodeBody : Value → Except StoreError (Option Bytes)
  | .null => .ok none
  | .bytes bytes => .ok (some bytes)
  | _ => .error .malformed

def decodeSequence (v : Value) : Except StoreError SequenceSnapshot := do
  match ← array v with
  | [owner, seq, digest, bodyLen, body] => do
    let owner ← integer owner >>= decodeOwner
    let seq ← integer seq >>= narrow 256
    let bodyDigest ← fixed 32 digest
    let bodyLen ← integer bodyLen
    let body ← decodeBody body
    .ok ⟨owner, UInt8.ofNat seq, bodyDigest, bodyLen, body⟩
  | _ => .error .malformed

def decodeNameplate : Value → Except StoreError (Option ℕ)
  | .null => .ok none
  | v => some <$> (integer v >>= narrow (2 ^ 32))

/-- The seven common parts of a record and the admission its version gives. -/
def decodeParts : List Value → Except StoreError (List Value × Admission)
  | [domain, mailboxId, nameplate, expiresAt, status, hashes, sequences] =>
    if domain.asText = some domainV1 then
      .ok ([mailboxId, nameplate, expiresAt, status, hashes, sequences], .v1)
    else .error .malformed
  | [domain, mailboxId, nameplate, expiresAt, status, hashes, sequences, admission] =>
    if domain.asText = some domainV2 then do
      let admission ← decodeAdmission admission
      .ok ([mailboxId, nameplate, expiresAt, status, hashes, sequences], admission)
    else .error .malformed
  | _ => .error .malformed

def decodeSnapshot (v : Value) : Except StoreError MailboxSnapshot := do
  match ← array v >>= decodeParts with
  | ([mailboxId, nameplate, expiresAt, status, hashes, sequences], admission) => do
    let mailboxId ← fixed 32 mailboxId
    let nameplate ← decodeNameplate nameplate
    let status ← decodeStatus status
    let hashes ← array hashes
    let membershipHashes ← hashes.mapM (fixed 32)
    let sequences ← array sequences
    let sequences ← sequences.mapM decodeSequence
    let expiresAt ← integer expiresAt
    .ok ⟨mailboxId, nameplate, UInt64.ofNat expiresAt, status, admission, membershipHashes,
      sequences⟩
  | _ => .error .malformed

def decode (input : Bytes) : Except StoreError Mailbox :=
  match decodeItem maxDepth input with
  | .error _ => .error .malformed
  | .ok (value, _) =>
    if toCanonicalVec value ≠ input then .error .malformed
    else do
      let snapshot ← decodeSnapshot value
      match Mailbox.fromSnapshot snapshot with
      | .ok m => .ok m
      | .error _ => .error .malformed

end Store

/-! ### What a recorded mailbox is rebuilt from -/

namespace Mailbox

variable {m : Mailbox}

theorem frame_sequence {f : FrameRecord} (h : f.Sound) (owner : Membership) :
    MailboxSnapshot.frame ⟨owner, f.seq, f.digest, f.bodyLen, f.body⟩ = .ok f := by
  have hpos := h.pos
  have hle := h.le
  have hlen : ¬ (f.bodyLen = 0 ∨ maxFrameBodyBytes < f.bodyLen) := by omega
  have hbody : (f.body.any fun body => body.length ≠ f.bodyLen ∨ sha256 body ≠ f.digest) = false := by
    cases hbody : f.body with
    | none => rfl
    | some body =>
      obtain ⟨hlength, hdigest⟩ := h.body body hbody
      simp [hlength, hdigest]
  simp only [MailboxSnapshot.frame, if_neg hlen, hbody, Bool.false_eq_true, if_false]

omit [Primitives] in
theorem filter_sequences (owner : Membership) :
    m.snapshot.sequences.filter (·.owner = owner) =
      (m.member owner).elim [] (sequencesOf owner) := by
  have hkeep : ∀ s : MemberState, (sequencesOf owner s).filter (·.owner = owner) =
      sequencesOf owner s := by
    intro s
    simp [sequencesOf]
  have hdrop : ∀ s : MemberState, (sequencesOf owner.opposite s).filter (·.owner = owner) = [] := by
    intro s
    simp [sequencesOf]
  cases owner with
  | allocator =>
    cases hclaimant : m.claimant with
    | none => simp [snapshot, hclaimant, hkeep, Mailbox.member]
    | some claimant =>
      have hdrop := hdrop claimant
      simp only [Side.opposite] at hdrop
      simp [snapshot, hclaimant, hkeep, hdrop, Mailbox.member]
  | claimant =>
    have hallocator := hdrop m.allocator
    simp only [Side.opposite] at hallocator
    cases hclaimant : m.claimant with
    | none => simp [snapshot, hclaimant, hallocator, Mailbox.member]
    | some claimant => simp [snapshot, hclaimant, hallocator, hkeep, Mailbox.member]

/-- The frames of a sound member are already in the order of their sequences. -/
theorem sequences_sorted {s : MemberState} (h : s.Sound) (owner : Membership) :
    (sequencesOf owner s).mergeSort (fun p q => p.seq ≤ q.seq) = sequencesOf owner s := by
  apply List.mergeSort_of_pairwise
  have hpairwise : (s.frames.map fun f => f.seq.toNat).Pairwise (· < ·) := by
    rw [h.numbered]
    exact List.pairwise_lt_range
  rw [List.pairwise_map] at hpairwise
  unfold sequencesOf
  rw [List.pairwise_map]
  refine hpairwise.imp ?_
  intro f g hlt
  simp only [decide_eq_true_eq, UInt8.le_iff_toNat_le]
  omega

theorem sequences_indexed {s : MemberState} (h : s.Sound) (owner : Membership) :
    ((sequencesOf owner s).zipIdx.any fun (q, index) => q.seq.toNat ≠ index) = false := by
  rw [List.any_eq_false]
  rintro ⟨q, index⟩ hmem
  have hget := List.mem_zipIdx_iff_getElem?.mp hmem
  have hnumber : (s.frames.map fun f => f.seq.toNat)[index]? = some q.seq.toNat := by
    simp only [sequencesOf, List.getElem?_map, Option.map_eq_some_iff] at hget ⊢
    obtain ⟨f, hf, rfl⟩ := hget
    exact ⟨f, hf, rfl⟩
  rw [h.numbered] at hnumber
  obtain ⟨hlt, hindex⟩ := List.getElem?_eq_some_iff.mp hnumber
  rw [List.getElem_range] at hindex
  simp [hindex]

theorem snapshot_member {s : MemberState} (h : s.Sound) {owner : Membership}
    (hmember : m.member owner = some s) : m.snapshot.member owner s.hash = .ok s := by
  have hfilter : m.snapshot.sequences.filter (·.owner = owner) = sequencesOf owner s := by
    rw [filter_sequences, hmember]
    rfl
  have hlength : (sequencesOf owner s).length = s.frames.length := by simp [sequencesOf]
  have hbounded := h.bounded
  have hframes : (sequencesOf owner s).mapM MailboxSnapshot.frame = .ok s.frames := by
    unfold sequencesOf
    rw [List.mapM_map]
    have hread := mapM_ok fun f (hf : f ∈ s.frames) => frame_sequence (h.frames f hf) owner
    rw [List.map_id'] at hread
    exact hread
  have hnext : UInt8.ofNat s.frames.length = s.nextSeq := by
    rw [← h.next]
    simp
  unfold MailboxSnapshot.member
  rw [hfilter, sequences_sorted h owner, if_neg]
  · simp only [maxFramesPerMembership] at hbounded
    rw [hframes, ok_bind, if_neg (by omega), hnext]
  · rw [not_or, sequences_indexed h owner, hlength]
    exact ⟨by omega, by simp⟩

omit [Primitives] in
theorem membershipHashes_length :
    m.membershipHashes.length = if m.claimant.isSome then 2 else 1 := by
  cases hclaimant : m.claimant <;> simp [membershipHashes, hclaimant]

theorem snapshot_admits (h : m.Recorded) : m.snapshot.admits = true := by
  have hadmission := h.admission
  have hlength : m.snapshot.membershipHashes.length = if m.claimant.isSome then 2 else 1 :=
    membershipHashes_length
  have hnone : m.status = .waiting → m.claimant.isSome = false := by
    intro hwaiting
    simp [h.waiting hwaiting]
  have hpaired := h.paired
  unfold MailboxSnapshot.admits
  rw [hlength]
  change (match m.admission, m.status with
    | .v1, _ => true
    | .v2Pending _, .waiting => m.nameplate.isNone && _
    | .v2Claimed, .paired => m.nameplate.isNone && _
    | .v2Closed, .terminal _ => m.nameplate.isNone
    | _, _ => false) = true
  cases hkind : m.admission <;> cases hstatus : m.status <;>
    simp_all [admissionFits]

omit [Primitives] in
theorem queued_frames (frames : List FrameRecord) :
    ((frames.filter (·.body.isSome)).map FrameRecord.bodyLen).sum =
      (frames.map FrameRecord.queued).sum := by
  induction frames with
  | nil => rfl
  | cons f frames ih =>
    cases hbody : f.body <;> simp [hbody, ih, FrameRecord.queued]

/-- The decoder rebuilds a recorded mailbox from its snapshot. -/
theorem fromSnapshot_snapshot (h : m.Recorded) : fromSnapshot m.snapshot = .ok m := by
  have hnameplate : (m.snapshot.nameplate.any (999999999 < ·)) = false := by
    show m.nameplate.any (999999999 < ·) = false
    cases hnameplate : m.nameplate with
    | none => rfl
    | some n => simpa using h.nameplate n hnameplate
  have hlength : m.snapshot.membershipHashes.length = if m.claimant.isSome then 2 else 1 :=
    membershipHashes_length
  have hrange : ¬ ((m.snapshot.nameplate.any (999999999 < ·)) = true ∨
      m.snapshot.membershipHashes.length = 0 ∨ 2 < m.snapshot.membershipHashes.length) := by
    rw [hnameplate, hlength]
    split_ifs <;> simp
  have hwaiting : ¬ (m.snapshot.status = .waiting ∧ m.snapshot.membershipHashes.length ≠ 1) := by
    rintro ⟨hstatus, hne⟩
    simp [hlength, h.waiting hstatus] at hne
  have hpaired : ¬ (m.snapshot.status = .paired ∧ m.snapshot.membershipHashes.length ≠ 2) := by
    rintro ⟨hstatus, hne⟩
    simp [hlength, h.paired hstatus] at hne
  have hadmits : ¬ ((!m.snapshot.admits) = true) := by simp [snapshot_admits h]
  have hallocator : m.snapshot.member .allocator m.allocator.hash = .ok m.allocator :=
    snapshot_member h.allocator rfl
  have haccounted := h.accounted
  unfold queued MemberState.queued at haccounted
  unfold fromSnapshot
  rw [if_neg hrange, if_neg hwaiting, if_neg hpaired, if_neg hadmits]
  cases hclaimant : m.claimant with
  | none =>
    have hhashes : m.snapshot.membershipHashes = [m.allocator.hash] := by
      simp [snapshot, membershipHashes, hclaimant]
    have hsequences : (m.snapshot.sequences.any fun q => q.owner = .claimant ∧ True) = false := by
      simp [snapshot, hclaimant, sequencesOf]
    have hqueue : ((m.allocator.frames.filter (·.body.isSome)).map FrameRecord.bodyLen).sum =
        m.queueBytes := by
      rw [queued_frames, haccounted, hclaimant]
      rfl
    have hsame : ({ m with claimant := none } : Mailbox) = m := by rw [← hclaimant]
    simp only [hhashes, hallocator, ok_bind, List.head?_nil, Option.isNone_none, hsequences,
      Bool.false_eq_true, if_false, Option.elim_none, List.append_nil, hqueue]
    exact congrArg Except.ok hsame
  | some claimant =>
    have hhashes : m.snapshot.membershipHashes = [m.allocator.hash, claimant.hash] := by
      simp [snapshot, membershipHashes, hclaimant]
    have hmember : m.snapshot.member .claimant claimant.hash = .ok claimant :=
      snapshot_member (h.claimant claimant hclaimant) hclaimant
    have hqueue : (((m.allocator.frames ++ claimant.frames).filter (·.body.isSome)).map
        FrameRecord.bodyLen).sum = m.queueBytes := by
      rw [queued_frames, haccounted, hclaimant, List.map_append, List.sum_append]
      rfl
    have hsame : ({ m with claimant := some claimant } : Mailbox) = m := by rw [← hclaimant]
    have hsequences : (m.snapshot.sequences.any fun _ => false) = false := by simp
    have hmapped : (some <$> (.ok claimant : Except MailboxError MemberState)) =
        .ok (some claimant) := rfl
    simp only [hhashes, hallocator, hmember, hmapped, ok_bind, List.head?_cons, Option.isNone_some,
      Bool.false_eq_true, and_false, decide_false, hsequences, if_false, Option.elim_some,
      hqueue]
    exact congrArg Except.ok hsame

end Mailbox

/-! ### The round trip of a record -/

namespace Store

omit [Primitives]

/-- The bounds inside which a record is read back. -/
structure Storable (s : MailboxSnapshot) : Prop where
  nameplate : ∀ n ∈ s.nameplate, n < 2 ^ 32
  hashes : s.membershipHashes.length < 2 ^ 64
  count : s.sequences.length < 2 ^ 64
  bodyLen : ∀ q ∈ s.sequences, q.bodyLen < 2 ^ 64
  body : ∀ q ∈ s.sequences, ∀ body ∈ q.body, body.length < 2 ^ 64

theorem integer_ofNat {n : ℕ} (h : n < 2 ^ 64) : integer (.integer n) = .ok n := by
  have hrange : (0 : ℤ) ≤ n ∧ (n : ℤ) < 2 ^ 64 := by omega
  rw [integer, Value.asUint, if_pos hrange, Int.toNat_natCast]

theorem narrow_ok {bound n : ℕ} (h : n < bound) : narrow bound n = .ok n := if_pos h

theorem fixed_bytes {n : ℕ} (x : Octets n) : fixed n (.bytes x.val) = .ok x := by
  simp [fixed, Value.asBytes]

@[simp] theorem array_array (items : List Value) : array (.array items) = .ok items := rfl

theorem decodeStatus_encode (status : MailboxStatus) :
    decodeStatus (encodeStatus status) = .ok status := by
  cases status with
  | waiting => rfl
  | paired => rfl
  | terminal reason => cases reason <;> rfl

theorem decodeAdmission_encode (admission : Admission) :
    decodeAdmission (encodeAdmission admission) = .ok admission := by
  cases admission with
  | v2Pending commitment =>
    have hone : integer (.integer 1) = .ok 1 := rfl
    simp [decodeAdmission, encodeAdmission, hone, fixed_bytes]
  | _ => rfl

theorem decodeNameplate_encode {nameplate : Option ℕ} (h : ∀ n ∈ nameplate, n < 2 ^ 32) :
    decodeNameplate (optionalInteger nameplate) = .ok nameplate := by
  cases nameplate with
  | none => rfl
  | some n =>
    have hn := h n rfl
    simp only [decodeNameplate, optionalInteger, integer_ofNat (show n < 2 ^ 64 by omega), ok_bind,
      narrow_ok hn]
    rfl

theorem decodeSequence_value {q : SequenceSnapshot} (h : q.bodyLen < 2 ^ 64) :
    decodeSequence (sequenceValue q) = .ok q := by
  have hseq := q.seq.toNat_lt
  have howner : integer (.integer (membershipNumber q.owner)) >>= decodeOwner = .ok q.owner := by
    cases q.owner <;> rfl
  have hnumber : integer (.integer q.seq.toNat) >>= narrow 256 = .ok q.seq.toNat := by
    rw [integer_ofNat (by omega), ok_bind, narrow_ok (by omega)]
  have hlength : integer (.integer q.bodyLen) = .ok q.bodyLen := integer_ofNat h
  have hbody : decodeBody (optionalBytes q.body) = .ok q.body := by
    cases q.body <;> rfl
  have hround : UInt8.ofNat q.seq.toNat = q.seq := by simp
  rw [decodeSequence, sequenceValue, array_array, ok_bind]
  dsimp only
  rw [howner, ok_bind, hnumber, ok_bind, fixed_bytes, ok_bind, hlength, ok_bind, hbody, ok_bind,
    hround]

theorem decodeSnapshot_record {s : MailboxSnapshot} (h : Storable s) :
    decodeSnapshot (recordValue s (s.sequences.map sequenceValue)) = .ok s := by
  have hsequences : (s.sequences.map sequenceValue).mapM decodeSequence = .ok s.sequences := by
    rw [List.mapM_map]
    have hread := mapM_ok fun q (hq : q ∈ s.sequences) => decodeSequence_value (h.bodyLen q hq)
    rw [List.map_id'] at hread
    exact hread
  have hhashes : (s.membershipHashes.map fun hash => Value.bytes hash.val).mapM (fixed 32) =
      .ok s.membershipHashes := by
    rw [List.mapM_map]
    have hread := mapM_ok fun x (_ : x ∈ s.membershipHashes) => fixed_bytes x
    rw [List.map_id'] at hread
    exact hread
  have hexpires := integer_ofNat s.expiresAt.toNat_lt
  have hround : UInt64.ofNat s.expiresAt.toNat = s.expiresAt := by simp
  have hparts : array (recordValue s (s.sequences.map sequenceValue)) >>= decodeParts =
      .ok ([.bytes s.mailboxId.val, optionalInteger s.nameplate, .integer s.expiresAt.toNat,
        encodeStatus s.status, .array (s.membershipHashes.map fun hash => .bytes hash.val),
        .array (s.sequences.map sequenceValue)], s.admission) := by
    by_cases hv1 : s.admission = .v1
    · simp [recordValue, hv1, decodeParts, Value.asText]
    · simp [recordValue, hv1, decodeParts, Value.asText, decodeAdmission_encode]
  simp only [decodeSnapshot, hparts, ok_bind, fixed_bytes, decodeNameplate_encode h.nameplate,
    decodeStatus_encode, array_array, hhashes, hsequences, hexpires, hround]

theorem canonical_sequence (q : SequenceSnapshot) :
    canonical (sequenceValue q) = sequenceValue q := by
  apply canonical_array_eq
  cases q.body <;> simp [canonical, optionalBytes]

theorem canonical_record (s : MailboxSnapshot) :
    canonical (recordValue s (s.sequences.map sequenceValue)) =
      recordValue s (s.sequences.map sequenceValue) := by
  have hnameplate : canonical (optionalInteger s.nameplate) = optionalInteger s.nameplate := by
    cases s.nameplate <;> simp [canonical, optionalInteger]
  have hstatus : canonical (encodeStatus s.status) = encodeStatus s.status := by
    cases s.status <;> simp [canonical, encodeStatus]
  have hadmission : canonical (encodeAdmission s.admission) = encodeAdmission s.admission := by
    cases s.admission <;> simp [canonical, encodeAdmission]
  have hhashes : canonical (.array (s.membershipHashes.map fun hash => .bytes hash.val)) =
      .array (s.membershipHashes.map fun hash => .bytes hash.val) := by
    apply canonical_array_eq
    intro x hx
    obtain ⟨hash, -, rfl⟩ := List.mem_map.mp hx
    rfl
  have hsequences : canonical (.array (s.sequences.map sequenceValue)) =
      .array (s.sequences.map sequenceValue) := by
    apply canonical_array_eq
    intro x hx
    obtain ⟨q, -, rfl⟩ := List.mem_map.mp hx
    exact canonical_sequence q
  have htext : ∀ text, canonical (.text text) = .text text := by simp [canonical]
  have hbytes : ∀ bytes, canonical (.bytes bytes) = .bytes bytes := by simp [canonical]
  have hinteger : ∀ n, canonical (.integer n) = .integer n := by simp [canonical]
  apply canonical_array_eq
  split_ifs
  · simp only [List.forall_mem_cons, hnameplate, hstatus, hhashes, hsequences, htext, hbytes,
      hinteger, List.not_mem_nil, false_imp_iff, implies_true, and_true]
  · simp only [List.cons_append, List.nil_append, List.forall_mem_cons, hnameplate, hstatus,
      hadmission, hhashes, hsequences, htext, hbytes, hinteger, List.not_mem_nil, false_imp_iff,
      implies_true, and_true]

section Plain

theorem plain_sequence {d : ℕ} {q : SequenceSnapshot} (hlength : q.bodyLen < 2 ^ 64)
    (hbody : ∀ body ∈ q.body, body.length < 2 ^ 64) : Plain (d + 2) (sequenceValue q) := by
  have hseq := q.seq.toNat_lt
  have howner : Plain (d + 1) (.integer (membershipNumber q.owner)) := by
    cases q.owner <;> exact plain_nat (by decide)
  have hbody : Plain (d + 1) (optionalBytes q.body) := by
    cases hq : q.body with
    | none => trivial
    | some body => exact hbody body hq
  apply plain_array
  · simp
  · simp only [List.forall_mem_cons, List.not_mem_nil, false_imp_iff, implies_true, and_true]
    exact ⟨howner, plain_nat (by omega), plain_bytes q.bodyDigest (by decide), plain_nat hlength,
      hbody⟩

theorem plain_record {d : ℕ} {s : MailboxSnapshot} (h : Storable s) :
    Plain (d + 4) (recordValue s (s.sequences.map sequenceValue)) := by
  have hdomain : ∀ domain ∈ [domainV1, domainV2], Plain (d + 3) (.text domain) := by
    intro domain hdomain
    constructor
    · revert domain
      decide
    · apply validUtf8_of_isAscii
      revert domain
      decide
  have hnameplate : Plain (d + 3) (optionalInteger s.nameplate) := by
    cases hn : s.nameplate with
    | none => trivial
    | some n =>
      have := h.nameplate n hn
      exact plain_nat (by omega)
  have hkind : ∀ n < 4, Plain (d + 2) (.integer (n : ℕ)) := fun n hn => plain_nat (by omega)
  have hstatus : Plain (d + 3) (encodeStatus s.status) := by
    cases s.status with
    | waiting => exact plain_array (by simp) (by simpa using hkind 0 (by omega))
    | paired => exact plain_array (by simp) (by simpa using hkind 1 (by omega))
    | terminal reason =>
      have hreason : closeNumber reason < 4 := by cases reason <;> decide
      exact plain_array (by simp) (by simpa using ⟨hkind 2 (by omega), hkind _ hreason⟩)
  have hadmission : Plain (d + 3) (encodeAdmission s.admission) := by
    cases s.admission with
    | v1 => exact plain_array (by simp) (by simpa using hkind 0 (by omega))
    | v2Pending commitment =>
      exact plain_array (by simp)
        (by simpa using ⟨hkind 1 (by omega), plain_bytes commitment (by decide)⟩)
    | v2Claimed => exact plain_array (by simp) (by simpa using hkind 2 (by omega))
    | v2Closed => exact plain_array (by simp) (by simpa using hkind 3 (by omega))
  have hhashes : Plain (d + 3) (.array (s.membershipHashes.map fun hash => .bytes hash.val)) := by
    apply plain_array (by simpa using h.hashes)
    intro x hx
    obtain ⟨hash, -, rfl⟩ := List.mem_map.mp hx
    exact plain_bytes hash (by decide)
  have hsequences : Plain (d + 3) (.array (s.sequences.map sequenceValue)) := by
    apply plain_array (by simpa using h.count)
    intro x hx
    obtain ⟨q, hq, rfl⟩ := List.mem_map.mp hx
    exact plain_sequence (h.bodyLen q hq) (h.body q hq)
  have hid : Plain (d + 3) (.bytes s.mailboxId.val) := plain_bytes s.mailboxId (by decide)
  have hexpires : Plain (d + 3) (.integer s.expiresAt.toNat) := plain_nat s.expiresAt.toNat_lt
  apply plain_array
  · split_ifs <;> simp
  · split_ifs
    · simp only [List.forall_mem_cons, List.not_mem_nil, false_imp_iff, implies_true, and_true]
      exact ⟨hdomain _ (by simp), hid, hnameplate, hexpires, hstatus, hhashes, hsequences⟩
    · simp only [List.cons_append, List.nil_append, List.forall_mem_cons, List.not_mem_nil,
        false_imp_iff, implies_true, and_true]
      exact ⟨hdomain _ (by simp), hid, hnameplate, hexpires, hstatus, hhashes, hsequences,
        hadmission⟩

end Plain

theorem encode_eq {s : MailboxSnapshot} (h : Storable s) :
    encode s = .ok (toCanonicalVec (recordValue s (s.sequences.map sequenceValue))) := by
  have hsequences : s.sequences.mapM encodeSequence = .ok (s.sequences.map sequenceValue) := by
    apply mapM_ok
    intro q hq
    exact if_neg (not_le.mpr (h.bodyLen q hq))
  rw [encode, hsequences, ok_bind]

/-- The decoder admits the record of a storable snapshot. -/
theorem decode_encode [Primitives] {s : MailboxSnapshot} (h : Storable s) {m : Mailbox}
    (hm : Mailbox.fromSnapshot s = .ok m) : (encode s >>= decode) = .ok m := by
  have hread : decodeItem maxDepth (toCanonicalVec (recordValue s (s.sequences.map sequenceValue))) =
      .ok (recordValue s (s.sequences.map sequenceValue), []) := by
    have hitem := decodeItem_encode (plain_record (d := 253) h) []
    rw [List.append_nil] at hitem
    rw [toCanonicalVec, canonical_record]
    exact hitem
  rw [encode_eq h, ok_bind, decode, hread]
  dsimp only
  rw [if_neg (by simp), decodeSnapshot_record h, ok_bind, hm]

end Store

namespace Mailbox

variable {m : Mailbox}

theorem Recorded.storable (h : m.Recorded) : Store.Storable m.snapshot := by
  have hmember : ∀ (owner : Membership) (s : MemberState), s.Sound →
      (sequencesOf owner s).length ≤ 16 ∧ ∀ q ∈ sequencesOf owner s, q.bodyLen < 2 ^ 64 ∧
        ∀ body ∈ q.body, body.length < 2 ^ 64 := by
    intro owner s hsound
    have hbounded := hsound.bounded
    simp only [maxFramesPerMembership] at hbounded
    refine ⟨by simpa [sequencesOf] using hbounded, ?_⟩
    intro q hq
    obtain ⟨f, hf, rfl⟩ := List.mem_map.mp hq
    have hframe := hsound.frames f hf
    have hle := hframe.le
    simp only [maxFrameBodyBytes] at hle
    refine ⟨by show f.bodyLen < 2 ^ 64; omega, ?_⟩
    intro body hbody
    have hlength := (hframe.body body hbody).1
    omega
  have hallocator := hmember .allocator m.allocator h.allocator
  have hsequences : m.snapshot.sequences.length ≤ 32 ∧ ∀ q ∈ m.snapshot.sequences,
      q.bodyLen < 2 ^ 64 ∧ ∀ body ∈ q.body, body.length < 2 ^ 64 := by
    cases hclaimant : m.claimant with
    | none =>
      simp only [snapshot, hclaimant, Option.elim_none, List.append_nil]
      exact ⟨by omega, hallocator.2⟩
    | some claimant =>
      have hclaimed := hmember .claimant claimant (h.claimant claimant hclaimant)
      simp only [snapshot, hclaimant, Option.elim_some, List.length_append, List.mem_append]
      refine ⟨by omega, ?_⟩
      intro q hq
      obtain hq | hq := hq
      · exact hallocator.2 q hq
      · exact hclaimed.2 q hq
  refine ⟨?_, ?_, by omega, fun q hq => (hsequences.2 q hq).1, fun q hq => (hsequences.2 q hq).2⟩
  · intro n hn
    have := h.nameplate n hn
    omega
  · show m.membershipHashes.length < 2 ^ 64
    rw [membershipHashes_length]
    split_ifs <;> omega

/-- The stored record of a recorded mailbox is read back as that mailbox. -/
theorem Recorded.decode_encode (h : m.Recorded) :
    (Store.encode m.snapshot >>= Store.decode) = .ok m :=
  Store.decode_encode h.storable (fromSnapshot_snapshot h)

end Mailbox
end CbclPairing

namespace CbclPairing
open Codec Calls

attribute [local instance] Primitives.transparent

end CbclPairing
