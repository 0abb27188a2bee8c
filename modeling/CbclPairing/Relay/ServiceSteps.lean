import CbclPairing.Relay.Indexes
import Mathlib.Logic.Relation

/-! What the calls of the relay do to a sound state: writes through to the store, the
changes that follow a write, and the invariant after each of them. -/
namespace CbclPairing
open Codec Calls Tables

namespace Store

/-- The record of a mailbox, as the encoder writes it. -/
def recordOf (m : Mailbox) : Bytes :=
  Cbor.toCanonicalVec (recordValue m.snapshot (m.snapshot.sequences.map sequenceValue))

theorem encode_recordOf [Primitives] {m : Mailbox} (h : m.Recorded) :
    encode m.snapshot = .ok (recordOf m) :=
  encode_eq h.storable

theorem decode_recordOf [Primitives] {m : Mailbox} (h : m.Recorded) :
    decode (recordOf m) = .ok m := by
  have hround := h.decode_encode
  rw [encode_recordOf h, ok_bind] at hround
  exact hround

end Store

namespace Relay

variable {C L : Type} {s : Relay C L} {id : Octets 32} {m m' : Mailbox}

/-! ### Writes -/

/-- The store refuses its next write. -/
def Refuses (s : Relay C L) : Prop := s.store.faults.head? = some true

instance (s : Relay C L) : Decidable s.Refuses :=
  inferInstanceAs (Decidable (s.store.faults.head? = some true))

/-- The relay after a write that the store refused. -/
def spent (s : Relay C L) : Relay C L :=
  { s with store := { s.store with faults := s.store.faults.tail } }

/-- The relay after the record of a mailbox was written. -/
def wrote (s : Relay C L) (m : Mailbox) : Relay C L :=
  { s with store :=
    { records := s.store.records.insert m.mailboxId (Store.recordOf m)
      faults := s.store.faults.tail } }

/-- The relay after the record of a mailbox was deleted. -/
def deleted (s : Relay C L) (id : Octets 32) : Relay C L :=
  { s with store :=
    { records := s.store.records.erase id, faults := s.store.faults.tail } }

theorem stored_put [Primitives] (h : m.Recorded) :
    stored (MailboxStore.put m) s =
      if s.Refuses then .error (.error .storage) s.spent else .ok () (s.wrote m) := by
  by_cases hrefuses : s.Refuses
  · have hhead : s.store.faults.head? = some true := hrefuses
    simp only [stored, MailboxStore.put, if_pos hhead, if_pos hrefuses]
    rfl
  · have hhead : ¬ s.store.faults.head? = some true := hrefuses
    simp only [stored, MailboxStore.put, if_neg hhead, if_neg hrefuses, Store.encode_recordOf h]
    rfl

theorem stored_remove (id : Octets 32) :
    stored (MailboxStore.remove id) s =
      if s.Refuses then .error (.error .storage) s.spent else .ok () (s.deleted id) := by
  by_cases hrefuses : s.Refuses
  · have hhead : s.store.faults.head? = some true := hrefuses
    simp only [stored, MailboxStore.remove, if_pos hhead, if_pos hrefuses]
    rfl
  · have hhead : ¬ s.store.faults.head? = some true := hrefuses
    simp only [stored, MailboxStore.remove, if_neg hhead, if_neg hrefuses]
    rfl

/-! ### Changes -/

/-- The relay with another state of a retained mailbox. -/
def replaced (s : Relay C L) (id : Octets 32) (m m' : Mailbox) : Relay C L :=
  { s.wrote m' with
    queueBytes := s.queueBytes - m.queueBytes + m'.queueBytes
    membershipHashes := s.membershipHashes ∪ m'.membershipHashes.toFinset
    mailboxes := s.mailboxes.insert id m' }

/-- The relay without a mailbox, its connections still attached. -/
def unindexed (s : Relay C L) (id : Octets 32) (m : Mailbox) : Relay C L :=
  { s.deleted id with
    mailboxes := s.mailboxes.erase id
    nameplates :=
      match m.nameplate with
      | some nameplate => s.nameplates.erase nameplate
      | none => s.nameplates
    membershipHashes := s.membershipHashes \ m.membershipHashes.toFinset
    expiries := s.expiries.erase (m.expiresAt, id)
    queueBytes := s.queueBytes - m.queueBytes }

/-- The relay without a mailbox. -/
def removed (s : Relay C L) (id : Octets 32) (m : Mailbox) : Relay C L :=
  ((s.unindexed id m).unroute ⟨id, .allocator⟩).unroute ⟨id, .claimant⟩

variable [Primitives]

theorem Indexed.queueBytes_le (h : s.Indexed) (hm : s.mailboxes.lookup id = some m) :
    m.queueBytes ≤ s.queueBytes := by
  rw [h.queued]
  exact Table.le_total Mailbox.queueBytes hm

theorem removeMailbox_eq (h : s.Indexed) (hm : s.mailboxes.lookup id = some m) :
    removeMailbox id s =
      if s.Refuses then .error (.error .storage) s.spent else .ok () (s.removed id m) := by
  have hsub : checkedSub64 s.queueBytes m.queueBytes = some (s.queueBytes - m.queueBytes) :=
    if_pos (h.queueBytes_le hm)
  unfold removeMailbox
  by_cases hrefuses : s.Refuses
  · rw [Call.run_bind_error (by rw [stored_remove, if_pos hrefuses]), if_pos hrefuses]
  · rw [Call.run_bind (by rw [stored_remove, if_neg hrefuses]), if_neg hrefuses]
    rw [Call.run_bind (Call.run_get _)]
    have hlookup : (s.deleted id).mailboxes.lookup id = some m := hm
    rw [hlookup]
    have hremoved : removeMailboxIndexes
        { s.deleted id with mailboxes := (s.deleted id).mailboxes.erase id } id m =
        some (s.removed id m) := by
      unfold removeMailboxIndexes
      have hqueue : checkedSub64 (s.deleted id).queueBytes m.queueBytes =
          some (s.queueBytes - m.queueBytes) := hsub
      rw [hqueue]
      rfl
    simp only [hremoved]
    rfl

theorem commit_some (h : s.Indexed) (hm : s.mailboxes.lookup id = some m) (hm' : m'.Recorded)
    (hroom : s.queueBytes - m.queueBytes + m'.queueBytes < 2 ^ 64) (effects : List MailboxEffect) :
    commit id ⟨some m', effects⟩ s =
      if s.Refuses then .error (.error .storage) s.spent else .ok () (s.replaced id m m') := by
  unfold commit
  by_cases hrefuses : s.Refuses
  · rw [if_pos hrefuses]
    exact Call.run_bind_error (by rw [stored_put hm', if_pos hrefuses])
  · rw [if_neg hrefuses]
    have hput : stored (MailboxStore.put m') s = .ok () (s.wrote m') := by
      rw [stored_put hm', if_neg hrefuses]
    have hlookup : (s.wrote m').mailboxes.lookup id = some m := hm
    have hsub : checkedSub64 (s.wrote m').queueBytes m.queueBytes =
        some (s.queueBytes - m.queueBytes) := if_pos (h.queueBytes_le hm)
    have hadd : checkedAdd64 (s.queueBytes - m.queueBytes) m'.queueBytes =
        some (s.queueBytes - m.queueBytes + m'.queueBytes) := if_pos hroom
    have hreplaced : (s.wrote m').replace id m' = some (s.replaced id m m') := by
      unfold replace
      rw [hlookup]
      simp only [Option.elim_some, hsub, Option.bind_eq_bind, Option.bind_some, hadd]
      rfl
    dsimp only
    rw [Call.run_bind hput, Call.run_bind (Call.run_get _), hreplaced]
    rfl

theorem commit_none (h : s.Indexed) (hm : s.mailboxes.lookup id = some m)
    (effects : List MailboxEffect) : commit id ⟨none, effects⟩ s =
      if s.Refuses then .error (.error .storage) s.spent else .ok () (s.removed id m) := by
  unfold commit
  dsimp only
  rw [Call.run_bind (Call.run_get _), if_pos (Finmap.mem_of_lookup_eq_some hm),
    removeMailbox_eq h hm]

/-! ### The invariant after a change -/

theorem Sound.withStore (h : s.Sound) (store : MailboxStore) :
    Sound { s with store } :=
  ⟨⟨h.recorded, h.named, h.nameplates, h.hashes, h.nodup, h.disjoint, h.expiries, h.queued⟩,
    ⟨h.size, h.room⟩, ⟨h.inverse, h.retained⟩⟩

theorem Sound.withLimiter (h : s.Sound) (limiter : L) : Sound { s with limiter } :=
  ⟨⟨h.recorded, h.named, h.nameplates, h.hashes, h.nodup, h.disjoint, h.expiries, h.queued⟩,
    ⟨h.size, h.room⟩, ⟨h.inverse, h.retained⟩⟩

theorem Sound.attach (h : s.Sound) (connection : ConnectionId) {key : SessionMembership}
    (hkey : key.mailboxId ∈ s.mailboxes) : (s.attach connection key).Sound :=
  ⟨⟨h.recorded, h.named, h.nameplates, h.hashes, h.nodup, h.disjoint, h.expiries, h.queued⟩,
    ⟨h.size, h.room⟩, h.toAttached.attach connection hkey⟩

omit [Primitives] in
theorem Attached.replaced (h : s.Attached) (id : Octets 32) (m m' : Mailbox) :
    (s.replaced id m m').Attached :=
  ⟨h.inverse, fun key connection hroute =>
    Finmap.mem_insert.mpr (.inr (h.retained key connection hroute))⟩

omit [Primitives] in
theorem Attached.install (h : s.Attached) (m : Mailbox) : (s.install m).Attached :=
  ⟨h.inverse, fun key connection hroute =>
    Finmap.mem_insert.mpr (.inr (h.retained key connection hroute))⟩

theorem Sound.replaced (h : s.Sound) (hm : s.mailboxes.lookup id = some m)
    (hfits : Fits s id m')
    (hroom : s.queueBytes - m.queueBytes + m'.queueBytes ≤ s.config.capacity.queueBytes.toNat) :
    (s.replaced id m m').Sound := by
  obtain ⟨hnameplate, hexpires, -⟩ := hfits.extends_ m hm
  have hle := h.queueBytes_le hm
  have htotal := Table.total_insert Mailbox.queueBytes (w := m') hm
  refine ⟨h.toIndexed.insert hfits rfl ?_ ?_ ?_ ?_, ⟨?_, hroom⟩, h.toAttached.replaced id m m'⟩
  · intro n
    show s.nameplates.lookup n = _
    split_ifs with hn
    · exact (h.nameplates n id).mpr ⟨m, hm, hnameplate.trans hn⟩
    · rfl
  · intro hash
    show hash ∈ s.membershipHashes ∪ m'.membershipHashes.toFinset ↔ _
    rw [Finset.mem_union, List.mem_toFinset, or_comm]
  · intro entry
    show entry ∈ s.expiries ↔ _
    constructor
    · exact .inr
    · rintro (rfl | hmem)
      · exact (h.expiries m'.expiresAt id).mpr ⟨m, hm, hexpires⟩
      · exact hmem
  · show s.queueBytes - m.queueBytes + m'.queueBytes =
      Table.total Mailbox.queueBytes (s.mailboxes.insert id m')
    have hqueued := h.queued
    omega
  · show Table.size (s.mailboxes.insert id m') ≤ _
    rw [Table.size_insert hm]
    exact h.size

theorem Sound.install (h : s.Sound) (hfits : Fits s m.mailboxId m)
    (hnew : m.mailboxId ∉ s.mailboxes) (halone : m.claimant = none) (hempty : m.queueBytes = 0)
    (hsize : s.mailboxes.size < s.config.capacity.openMailboxes.toNat) :
    (s.install m).Sound := by
  have hhashes : m.membershipHashes = [m.allocator.hash] := by
    simp [Mailbox.membershipHashes, halone]
  refine ⟨h.toIndexed.insert hfits rfl ?_ ?_ ?_ ?_, ⟨?_, h.room⟩, h.toAttached.install m⟩
  · intro n
    cases hnameplate : m.nameplate with
    | none => simp [Relay.install, hnameplate]
    | some nameplate =>
      simp only [Relay.install, hnameplate]
      rw [Table.lookup_insert_if]
      simp [eq_comm]
  · intro hash
    show hash ∈ insert m.allocator.hash s.membershipHashes ↔ _
    rw [Finset.mem_insert, hhashes, List.mem_singleton]
  · intro entry
    exact Finset.mem_insert
  · show s.queueBytes = Table.total Mailbox.queueBytes (s.mailboxes.insert m.mailboxId m)
    rw [Table.total_insert_new Mailbox.queueBytes hnew, hempty, Nat.add_zero]
    exact h.queued
  · show Table.size (s.mailboxes.insert m.mailboxId m) ≤ _
    rw [Table.size_insert_new hnew]
    exact hsize

omit [Primitives] in
theorem lookup_removed (key : SessionMembership) :
    (s.removed id m).routes.lookup key =
      if key.mailboxId = id then none else s.routes.lookup key := by
  obtain ⟨mailboxId, membership⟩ := key
  unfold removed
  rw [lookup_unroute, lookup_unroute]
  cases membership <;> simp [unindexed, deleted]

theorem Sound.removed (h : s.Sound) (hm : s.mailboxes.lookup id = some m) :
    (s.removed id m).Sound := by
  have hle := h.queueBytes_le hm
  have htotal := Table.total_erase Mailbox.queueBytes hm
  have hinverse : (s.unindexed id m).Inverse := h.inverse
  refine ⟨h.toIndexed.erase hm rfl ?_ ?_ ?_ ?_, ⟨?_, ?_⟩, ⟨(hinverse.unroute _).unroute _, ?_⟩⟩
  · intro n
    show (s.unindexed id m).nameplates.lookup n = _
    cases hnameplate : m.nameplate with
    | none => simp [unindexed, deleted, hnameplate]
    | some nameplate =>
      simp only [unindexed, hnameplate]
      rw [Table.lookup_erase_if]
      simp [eq_comm]
  · intro hash
    show hash ∈ s.membershipHashes \ m.membershipHashes.toFinset ↔ _
    rw [Finset.mem_sdiff, List.mem_toFinset]
  · intro entry
    exact Finset.mem_erase
  · show s.queueBytes - m.queueBytes = Table.total Mailbox.queueBytes (s.mailboxes.erase id)
    have hqueued := h.queued
    omega
  · exact le_trans (Table.size_erase_le s.mailboxes id) h.size
  · exact le_trans (Nat.sub_le _ _) h.room
  · intro key connection hroute
    rw [lookup_removed] at hroute
    split_ifs at hroute with hid
    exact Finmap.mem_erase.mpr ⟨hid, h.retained key connection hroute⟩

/-! ### Changes of a sound relay -/

omit [Primitives] in
/-- The relay after a connection bound. -/
def boundBy (s : Relay C L) (connection : ConnectionId) : Relay C L :=
  let state := (s.connections.lookup connection).getD {}
  { s with connections := s.connections.insert connection { state with bound := true } }

omit [Primitives] in
/-- The relay after a connection left. -/
def leftBy (s : Relay C L) (connection : ConnectionId) : Relay C L :=
  { s with
    connections := s.connections.erase connection
    routes := dropRoute s.routes connection (s.membershipOf connection) }

/-- The elementary changes every call is made of. -/
inductive Change (s : Relay C L) : Relay C L → Prop
  | limited (limiter : L) : Change s { s with limiter }
  | disabled : Change s { s with config := { s.config with allocationEnabled := false } }
  | spent : Change s s.spent
  | bound (connection : ConnectionId) : Change s (s.boundBy connection)
  | left (connection : ConnectionId) : Change s (s.leftBy connection)
  | installed {m : Mailbox} : Fits s m.mailboxId m → m.mailboxId ∉ s.mailboxes →
      m.claimant = none → m.queueBytes = 0 →
      s.mailboxes.size < s.config.capacity.openMailboxes.toNat →
      Change s ((s.wrote m).install m)
  | attached (connection : ConnectionId) {key : SessionMembership} :
      key.mailboxId ∈ s.mailboxes → Change s (s.attach connection key)
  | replaced {id : Octets 32} {m m' : Mailbox} : s.mailboxes.lookup id = some m → Fits s id m' →
      s.queueBytes - m.queueBytes + m'.queueBytes ≤ s.config.capacity.queueBytes.toNat →
      Change s (s.replaced id m m')
  | removed {id : Octets 32} {m : Mailbox} : s.mailboxes.lookup id = some m →
      Change s (s.removed id m)

omit [Primitives] in
theorem membershipOf_boundBy (connection x : ConnectionId) :
    (s.boundBy connection).membershipOf x = s.membershipOf x := by
  unfold boundBy membershipOf
  rw [membershipIn_insert]
  split_ifs with hx
  · subst hx
    unfold membershipIn
    cases s.connections.lookup x <;> rfl
  · rfl

omit [Primitives] in
theorem Attached.leftBy (h : s.Attached) (connection : ConnectionId) :
    (s.leftBy connection).Attached := by
  constructor
  · intro key x
    show (dropRoute s.routes connection (s.membershipOf connection)).lookup key = some x ↔
      membershipIn (s.connections.erase connection) x = some key
    rw [lookup_dropRoute h, membershipIn_erase]
    have hinverse : s.routes.lookup key = some x ↔ membershipIn s.connections x = some key :=
      h.inverse key x
    by_cases hx : x = connection
    · subst hx
      rw [if_pos rfl]
      split_ifs with hown
      · simp
      · simp only [hinverse, iff_false]
        exact hown
    · rw [if_neg hx]
      split_ifs with hown
      · have hroute := (h.inverse key connection).mpr hown
        rw [hroute] at hinverse
        simpa [Ne.symm hx] using hinverse
      · exact hinverse
  · intro key x hroute
    have hlookup := lookup_dropRoute h connection key
    have hkept : (dropRoute s.routes connection (s.membershipOf connection)).lookup key = some x :=
      hroute
    rw [hlookup] at hkept
    split_ifs at hkept
    exact h.retained key x hkept

/-- Every change keeps the invariant. -/
theorem Change.sound {s' : Relay C L} (hchange : Change s s') (h : s.Sound) : s'.Sound := by
  cases hchange with
  | limited limiter => exact h.withLimiter limiter
  | disabled =>
    exact ⟨⟨h.recorded, h.named, h.nameplates, h.hashes, h.nodup, h.disjoint, h.expiries,
      h.queued⟩, ⟨h.size, h.room⟩, ⟨h.inverse, h.retained⟩⟩
  | spent => exact h.withStore _
  | bound connection =>
    refine ⟨⟨h.recorded, h.named, h.nameplates, h.hashes, h.nodup, h.disjoint, h.expiries,
      h.queued⟩, ⟨h.size, h.room⟩, ⟨?_, h.retained⟩⟩
    intro key x
    rw [membershipOf_boundBy]
    exact h.inverse key x
  | left connection =>
    exact ⟨⟨h.recorded, h.named, h.nameplates, h.hashes, h.nodup, h.disjoint, h.expiries,
      h.queued⟩, ⟨h.size, h.room⟩, h.toAttached.leftBy connection⟩
  | @installed m hfits hnew halone hempty hsize =>
    have hwrote : (s.wrote m).Sound := h.withStore _
    have hfits' : Fits (s.wrote m) m.mailboxId m := ⟨hfits.recorded, hfits.named, hfits.nodup,
      hfits.extends_, hfits.nameplate, hfits.hashes⟩
    exact hwrote.install hfits' hnew halone hempty hsize
  | attached connection hkey => exact h.attach connection hkey
  | replaced hm hfits hroom => exact h.replaced hm hfits hroom
  | removed hm => exact h.removed hm

/-- Changes made one after the other. -/
abbrev Changes : Relay C L → Relay C L → Prop := Relation.ReflTransGen Change

theorem Changes.sound {s' : Relay C L} (hchanges : Changes s s') (h : s.Sound) : s'.Sound := by
  induction hchanges with
  | refl => exact h
  | tail _ hchange ih => exact hchange.sound ih

end Relay
end CbclPairing
