import CbclPairing.Relay.ServiceSteps

/-! What the loader admits: a decoded record is a recorded mailbox, the relay built
over a store is sound, and the store of a sound relay rebuilds it. -/
namespace CbclPairing
open Codec Calls Tables

/-! ### Decoded records -/

namespace MailboxSnapshot

variable [Primitives] {s : MailboxSnapshot}

theorem frame_sound {q : SequenceSnapshot} {f : FrameRecord} (h : frame q = .ok f) :
    f.Sound ∧ f.seq = q.seq ∧ f.body = q.body := by
  unfold frame at h
  rw [guard_eq_ok, guard_eq_ok, not_or] at h
  obtain ⟨⟨hpos, hle⟩, hbody, hf⟩ := h
  obtain rfl := Except.ok.inj hf
  refine ⟨⟨Nat.pos_of_ne_zero hpos, Nat.le_of_not_lt hle, ?_⟩, rfl, rfl⟩
  intro body hmem
  have hread : q.body = some body := hmem
  simpa [hread] using hbody

omit [Primitives] in
/-- Entries that carry their own index are numbered from zero. -/
theorem numbered_of_indexed {α : Type} {number : α → ℕ} {xs : List α}
    (h : ∀ entry ∈ xs.zipIdx, number entry.1 = entry.2) :
    xs.map number = List.range xs.length := by
  apply List.ext_getElem
  · simp
  · intro i hi _
    rw [List.length_map] at hi
    have hmem : (xs[i], i) ∈ xs.zipIdx :=
      List.mem_zipIdx_iff_getElem?.mpr (List.getElem?_eq_getElem hi)
    simpa using h _ hmem

theorem member_sound {owner : Membership} {hash : MembershipHash} {state : MemberState}
    (h : s.member owner hash = .ok state) : state.Sound ∧ state.hash = hash := by
  unfold member at h
  generalize (s.sequences.filter (·.owner = owner)).mergeSort (fun p q => p.seq ≤ q.seq) =
    sequences at h
  simp only [guard_eq_ok, except_bind_eq_ok, not_or, Bool.not_eq_true] at h
  obtain ⟨⟨hbounded, hindexed⟩, frames, hread, hlength, hstate⟩ := h
  obtain rfl := Except.ok.inj hstate
  have hframes := mapM_eq_ok.mp hread
  have hcount : sequences.length = frames.length := hframes.length_eq
  have hnumbers : frames.map (fun f => f.seq.toNat) = sequences.map fun q => q.seq.toNat := by
    rw [← List.forall₂_eq_eq_eq, List.forall₂_map_left_iff, List.forall₂_map_right_iff]
    refine List.Forall₂.flip (hframes.imp ?_)
    intro q f hf
    show f.seq.toNat = q.seq.toNat
    rw [(frame_sound hf).2.1]
  refine ⟨⟨?_, ?_, ?_, ?_⟩, rfl⟩
  · rw [hnumbers, numbered_of_indexed, hcount]
    intro entry hmem
    simpa using List.any_eq_false.mp hindexed entry hmem
  · show (UInt8.ofNat frames.length).toNat = frames.length
    simp only [UInt8.toNat_ofNat']
    omega
  · show frames.length ≤ _
    omega
  · intro f hf
    obtain ⟨q, -, hq⟩ := mapM_mem hread hf
    exact (frame_sound hq).1

end MailboxSnapshot

section Decoded

variable [Primitives]

/-- What a rebuilt mailbox is made of: the fields of the snapshot, and for every member
hash the frames of that member. -/
structure Mailbox.Rebuilt (s : MailboxSnapshot) (m : Mailbox) : Prop where
  nameplate : ∀ n ∈ m.nameplate, n ≤ 999999999
  waiting : s.status = .waiting → s.membershipHashes.length = 1
  paired : s.status = .paired → s.membershipHashes.length = 2
  admits : s.admits = true
  hashes : m.membershipHashes = s.membershipHashes
  allocator : s.member .allocator m.allocator.hash = .ok m.allocator
  claimant : ∀ c ∈ m.claimant, s.member .claimant c.hash = .ok c
  unclaimed : m.claimant = none → ∀ q ∈ s.sequences, q.owner = .allocator
  status : m.status = s.status
  fits : m.admission = s.admission ∧ m.nameplate = s.nameplate
  queueBytes : m.queueBytes = m.queued

/-- A snapshot that is rebuilt names an allocator, and a claimant if it has a second hash. -/
theorem Mailbox.fromSnapshot_rebuilt {s : MailboxSnapshot} {m : Mailbox}
    (h : fromSnapshot s = .ok m) : Rebuilt s m := by
  unfold fromSnapshot at h
  rw [guard_eq_ok, guard_eq_ok, guard_eq_ok, guard_eq_ok, not_or, not_or] at h
  obtain ⟨⟨hnameplate, -, hlength⟩, hwaiting, hpaired, hadmits, h⟩ := h
  have hplate : ∀ n ∈ s.nameplate, n ≤ 999999999 := by
    intro n hn
    have hread : s.nameplate = some n := hn
    simpa [hread] using hnameplate
  have hwaits : s.status = .waiting → s.membershipHashes.length = 1 := by
    intro hstatus
    simpa [hstatus] using hwaiting
  have hpairs : s.status = .paired → s.membershipHashes.length = 2 := by
    intro hstatus
    simpa [hstatus] using hpaired
  have hadmits : s.admits = true := by simpa using hadmits
  cases hhashes : s.membershipHashes with
  | nil => simp [hhashes] at h
  | cons hash hashes =>
    rw [hhashes, except_bind_eq_ok] at h
    obtain ⟨allocator, hallocator, h⟩ := h
    obtain rfl := (MailboxSnapshot.member_sound hallocator).2
    cases hashes with
    | nil =>
      simp only [List.head?_nil, ok_bind, guard_eq_ok] at h
      obtain ⟨howned, hm⟩ := h
      obtain rfl := Except.ok.inj hm
      refine ⟨hplate, hwaits, hpairs, hadmits, hhashes.symm, hallocator,
        (by intros; contradiction), ?_, rfl,
        ⟨rfl, rfl⟩, ?_⟩
      · intro _ q hq
        have hnot : q.owner ≠ .claimant := by
          intro howner
          exact howned (List.any_eq_true.mpr ⟨q, hq, by simp [howner]⟩)
        cases howner : q.owner with
        | allocator => rfl
        | claimant => exact absurd howner hnot
      · simp [queued_frames, queued, MemberState.queued]
    | cons second rest =>
      simp only [List.head?_cons, except_bind_eq_ok, guard_eq_ok] at h
      obtain ⟨claimant, hclaimant, -, hm⟩ := h
      obtain ⟨state, hstate, rfl⟩ : ∃ state, s.member .claimant second = .ok state ∧
          claimant = some state := by
        cases hstate : s.member .claimant second with
        | error e =>
          rw [hstate] at hclaimant
          cases hclaimant
        | ok state =>
          rw [hstate] at hclaimant
          exact ⟨state, rfl, (Except.ok.inj hclaimant).symm⟩
      obtain rfl := (MailboxSnapshot.member_sound hstate).2
      obtain rfl : rest = [] := by
        rw [hhashes, List.length_cons, List.length_cons] at hlength
        exact List.length_eq_zero_iff.mp (by omega)
      obtain rfl := Except.ok.inj hm
      refine ⟨hplate, hwaits, hpairs, hadmits, hhashes.symm, hallocator, ?_,
        (by intros; contradiction), rfl,
        ⟨rfl, rfl⟩, ?_⟩
      · intro c hc
        obtain rfl := Option.some.inj hc
        exact hstate
      · simp [queued_frames, queued, MemberState.queued]

theorem Mailbox.Rebuilt.recorded {s : MailboxSnapshot} {m : Mailbox} (h : Rebuilt s m) :
    m.Recorded := by
  have hlength : s.membershipHashes.length = if m.claimant.isSome then 2 else 1 := by
    rw [← h.hashes, membershipHashes_length]
  refine ⟨h.nameplate, (MailboxSnapshot.member_sound h.allocator).1, ?_, h.queueBytes, ?_, ?_, ?_⟩
  · intro c hc
    exact (MailboxSnapshot.member_sound (h.claimant c hc)).1
  · intro hstatus
    rw [h.status] at hstatus
    simpa [hlength] using h.waiting hstatus
  · intro hstatus
    rw [h.status] at hstatus
    simpa [hlength, Option.isSome_iff_ne_none] using h.paired hstatus
  · rw [h.status, h.fits.1, h.fits.2]
    have hadmits := h.admits
    unfold MailboxSnapshot.admits at hadmits
    cases hkind : s.admission <;> cases hstatus : s.status <;>
      simp_all [admissionFits]

/-- What is rebuilt from a snapshot is recorded. -/
theorem Mailbox.fromSnapshot_recorded {s : MailboxSnapshot} {m : Mailbox}
    (h : fromSnapshot s = .ok m) : m.Recorded :=
  (fromSnapshot_rebuilt h).recorded

/-- An accepted record is canonical, and its mailbox is rebuilt from the snapshot it holds. -/
theorem Store.decode_eq_ok {record : Bytes} {m : Mailbox} (h : Store.decode record = .ok m) :
    ∃ value rest s, Cbor.decodeItem Cbor.maxDepth record = .ok (value, rest) ∧
      decodeSnapshot value = .ok s ∧ Mailbox.fromSnapshot s = .ok m := by
  unfold Store.decode at h
  cases hitem : Cbor.decodeItem Cbor.maxDepth record with
  | error e => simp [hitem] at h
  | ok item =>
    simp only [hitem, guard_eq_ok, except_bind_eq_ok] at h
    obtain ⟨-, s, hs, h⟩ := h
    cases hm : Mailbox.fromSnapshot s with
    | error e => simp [hm] at h
    | ok rebuilt =>
      rw [hm] at h
      obtain rfl := Except.ok.inj h
      exact ⟨item.1, item.2, s, rfl, hs, hm⟩

theorem Store.decode_recorded {record : Bytes} {m : Mailbox} (h : Store.decode record = .ok m) :
    m.Recorded := by
  obtain ⟨value, rest, s, -, -, hm⟩ := decode_eq_ok h
  exact Mailbox.fromSnapshot_recorded hm

end Decoded

namespace Relay

variable {C L : Type} {s s' : Relay C L} {m : Mailbox}

/-! ### Registration -/

theorem insertHashes_eq_some {hashes added : Finset MembershipHash} {list : List MembershipHash} :
    insertHashes hashes list = some added ↔
      list.Nodup ∧ (∀ hash ∈ list, hash ∉ hashes) ∧ added = hashes ∪ list.toFinset := by
  induction list generalizing hashes with
  | nil => simp [insertHashes, eq_comm]
  | cons hash list ih =>
    unfold insertHashes
    by_cases hused : hash ∈ hashes
    · simp [hused]
    · rw [if_neg hused, ih, List.nodup_cons, List.toFinset_cons, Finset.union_insert,
        Finset.insert_union]
      simp only [Finset.mem_insert, List.mem_cons, not_or, forall_eq_or_imp]
      constructor
      · rintro ⟨hnodup, hfresh, hadded⟩
        exact ⟨⟨fun hmem => (hfresh hash hmem).1 rfl, hnodup⟩,
          ⟨hused, fun x hx => (hfresh x hx).2⟩, hadded⟩
      · rintro ⟨⟨hnot, hnodup⟩, ⟨_, hfresh⟩, hadded⟩
        exact ⟨hnodup, fun x hx => ⟨fun hsame => hnot (hsame ▸ hx), hfresh x hx⟩, hadded⟩

/-- The relay with a loaded mailbox in every index. -/
def registered (s : Relay C L) (m : Mailbox) : Relay C L :=
  { s with
    nameplates :=
      match m.nameplate with
      | some nameplate => s.nameplates.insert nameplate m.mailboxId
      | none => s.nameplates
    membershipHashes := s.membershipHashes ∪ m.membershipHashes.toFinset
    queueBytes := s.queueBytes + m.queueBytes
    expiries := insert (m.expiresAt, m.mailboxId) s.expiries
    mailboxes := s.mailboxes.insert m.mailboxId m }

/-- A mailbox is registered when it clashes with nothing registered before. -/
structure Registers (s : Relay C L) (m : Mailbox) : Prop where
  nameplate : ∀ n ∈ m.nameplate, n ∉ s.nameplates
  nodup : m.membershipHashes.Nodup
  hashes : ∀ hash ∈ m.membershipHashes, hash ∉ s.membershipHashes
  room : s.queueBytes + m.queueBytes < 2 ^ 64
  new : m.mailboxId ∉ s.mailboxes

theorem register_eq_ok : register s m = .ok s' ↔ Registers s m ∧ s' = s.registered m := by
  have hplate : ¬ (m.nameplate.any (· ∈ s.nameplates)) = true ↔
      ∀ n ∈ m.nameplate, n ∉ s.nameplates := by
    cases m.nameplate <;> simp
  unfold register
  rw [guard_eq_ok, hplate]
  cases hhashes : insertHashes s.membershipHashes m.membershipHashes with
  | none =>
    constructor
    · rintro ⟨_, h⟩
      cases h
    · rintro ⟨h, _⟩
      rw [insertHashes_eq_some.mpr ⟨h.nodup, h.hashes, rfl⟩] at hhashes
      cases hhashes
  | some added =>
    obtain ⟨hnodup, hfresh, rfl⟩ := insertHashes_eq_some.mp hhashes
    by_cases hroom : s.queueBytes + m.queueBytes < 2 ^ 64
    · have hadd : checkedAdd64 s.queueBytes m.queueBytes = some (s.queueBytes + m.queueBytes) :=
        if_pos hroom
      simp only [hadd, guard_eq_ok]
      constructor
      · rintro ⟨hnameplate, hnew, hs'⟩
        exact ⟨⟨hnameplate, hnodup, hfresh, hroom, hnew⟩, (Except.ok.inj hs').symm⟩
      · rintro ⟨h, hs'⟩
        exact ⟨h.nameplate, h.new, hs' ▸ rfl⟩
    · have hadd : checkedAdd64 s.queueBytes m.queueBytes = none := if_neg hroom
      simp only [hadd]
      constructor
      · rintro ⟨_, h⟩
        cases h
      · rintro ⟨h, _⟩
        exact absurd h.room hroom

variable [Primitives]

theorem Indexed.registered (h : s.Indexed) (hm : m.Recorded) (hreg : Registers s m) :
    (s.registered m).Indexed := by
  have hfits : Fits s m.mailboxId m := by
    refine ⟨hm, rfl, hreg.nodup, ?_, ?_, ?_⟩
    · intro old hold
      exact absurd (Finmap.mem_of_lookup_eq_some hold) hreg.new
    · intro n hn j hj
      exact absurd (Finmap.mem_of_lookup_eq_some hj) (hreg.nameplate n hn)
    · intro hash hmem hused
      exact absurd hused (hreg.hashes hash hmem)
  refine h.insert hfits rfl ?_ ?_ ?_ ?_
  · intro n
    cases hnameplate : m.nameplate with
    | none => simp [Relay.registered, hnameplate]
    | some nameplate =>
      simp only [Relay.registered, hnameplate]
      rw [Table.lookup_insert_if]
      simp [eq_comm]
  · intro hash
    show hash ∈ s.membershipHashes ∪ m.membershipHashes.toFinset ↔ _
    rw [Finset.mem_union, List.mem_toFinset, or_comm]
  · intro entry
    exact Finset.mem_insert
  · show s.queueBytes + m.queueBytes = Table.total _ (s.mailboxes.insert m.mailboxId m)
    rw [Table.total_insert_new Mailbox.queueBytes hreg.new, h.queued]

omit [Primitives] in
/-- The relay before anything is loaded. -/
def unloaded (config : RelayConfig C) (limiter : L) (store : MailboxStore) : Relay C L :=
  { config, limiter, store, mailboxes := ∅, nameplates := ∅, membershipHashes := ∅
    expiries := ∅, queueBytes := 0, connections := ∅, routes := ∅ }

theorem unloaded_indexed (config : RelayConfig C) (limiter : L) (store : MailboxStore) :
    (unloaded config limiter store).Indexed := by
  refine ⟨?_, ?_, ?_, ?_, ?_, ?_, ?_, ?_⟩ <;> simp [unloaded]

/-- Registering a list of recorded mailboxes keeps the indexes exact, and changes
nothing else. -/
theorem foldlM_register {loaded : List Mailbox} (h : s.Indexed)
    (hloaded : ∀ m ∈ loaded, m.Recorded) (hfold : loaded.foldlM register s = .ok s') :
    s'.Indexed ∧ s'.config = s.config ∧ s'.limiter = s.limiter ∧ s'.store = s.store ∧
      s'.connections = s.connections ∧ s'.routes = s.routes := by
  induction loaded generalizing s with
  | nil =>
    obtain rfl := Except.ok.inj hfold
    exact ⟨h, rfl, rfl, rfl, rfl, rfl⟩
  | cons m loaded ih =>
    rw [List.foldlM_cons, except_bind_eq_ok] at hfold
    obtain ⟨next, hnext, hrest⟩ := hfold
    obtain ⟨hreg, rfl⟩ := register_eq_ok.mp hnext
    have hindexed := h.registered (hloaded m List.mem_cons_self) hreg
    have hkept := ih hindexed (fun m hm => hloaded m (List.mem_cons_of_mem _ hm)) hrest
    exact hkept

theorem load_recorded {store : MailboxStore} {loaded : List Mailbox}
    (h : store.load = .ok loaded) : ∀ m ∈ loaded, m.Recorded := by
  intro m hm
  obtain ⟨id, -, hid⟩ := mapM_mem h hm
  cases hrecord : store.records.lookup id with
  | none => simp [hrecord] at hid
  | some record =>
    rw [hrecord] at hid
    exact Store.decode_recorded hid

variable [RateLimiter C L]

/-- What a construction went through. -/
theorem withStore_eq_ok {config : RelayConfig C} {store : MailboxStore} :
    withStore config store = .ok s ↔ ∃ limiter loaded,
      ¬ (config.capacity.openMailboxes = 0 ∨ config.capacity.queueBytes = 0 ∨
        config.capacity.limiterEntries = 0 ∨
        config.capacity.limiterEntries.toNat ≠ RateLimiter.entryCap L config.limiter) ∧
      RateLimiter.new config.operatorKey config.limiter = some limiter ∧
      store.load = .ok loaded ∧
      loaded.foldlM register (unloaded config limiter store) = .ok s ∧
      s.mailboxes.size ≤ config.capacity.openMailboxes.toNat ∧
      s.queueBytes ≤ config.capacity.queueBytes.toNat := by
  unfold withStore
  rw [guard_eq_ok]
  cases hlimiter : (RateLimiter.new config.operatorKey config.limiter : Option L) with
  | none => simp
  | some limiter =>
    cases hload : store.load with
    | error e => simp
    | ok loaded =>
      simp only [except_bind_eq_ok, guard_eq_ok, not_or, not_lt]
      constructor
      · rintro ⟨hconfig, built, hbuilt, ⟨hsize, hroom⟩, hs⟩
        obtain rfl := Except.ok.inj hs
        exact ⟨limiter, loaded, hconfig, rfl, rfl, hbuilt, hsize, hroom⟩
      · rintro ⟨limiter', loaded', hconfig, hlimiter', hloaded', hbuilt, hsize, hroom⟩
        obtain rfl := Option.some.inj hlimiter'
        obtain rfl := Except.ok.inj hloaded'
        exact ⟨hconfig, s, hbuilt, ⟨hsize, hroom⟩, rfl⟩

/-- A constructed relay is sound, and nobody is attached to it. -/
theorem withStore_sound {config : RelayConfig C} {store : MailboxStore}
    (h : withStore config store = .ok s) :
    s.Sound ∧ s.config = config ∧ s.store = store ∧ s.connections = ∅ ∧ s.routes = ∅ := by
  obtain ⟨limiter, loaded, -, -, hload, hfold, hsize, hroom⟩ := withStore_eq_ok.mp h
  obtain ⟨hindexed, hconfig, -, hstore, hconnections, hroutes⟩ :=
    foldlM_register (unloaded_indexed config limiter store) (load_recorded hload) hfold
  have hnobody : s.connections = ∅ := hconnections
  have hnowhere : s.routes = ∅ := hroutes
  have hcaps : s.Capped := by
    constructor
    · rw [hconfig]
      exact hsize
    · rw [hconfig]
      exact hroom
  have hattached : s.Attached := by
    constructor
    · intro key connection
      simp [hnowhere, membershipOf, membershipIn, hnobody]
    · simp [hnowhere]
  exact ⟨⟨hindexed, hcaps, hattached⟩, hconfig, hstore, hnobody, hnowhere⟩

end Relay
end CbclPairing
