import CbclPairing.Relay.ServiceRuns

/-! Store and memory: after every call the store holds exactly the retained mailboxes,
and a relay built over that store has the same mailboxes and indexes. -/
namespace CbclPairing
open Codec Calls Tables

variable {C L : Type} [Primitives] {s s' : Relay C L} {m : Mailbox}

/-- Every record is filed under the identifier of its mailbox. -/
def MailboxStore.Keyed (store : MailboxStore) : Prop := ∀ id record m,
  store.records.lookup id = some record → Store.decode record = .ok m → m.mailboxId = id

namespace Relay

/-- The store holds the retained mailboxes and no other. -/
def Persisted (s : Relay C L) : Prop := ∀ id,
  (s.store.records.lookup id).map Store.decode = (s.mailboxes.lookup id).map .ok

/-! ### Changes write through -/

theorem Persisted.put (h : s.Persisted) (hm : m.Recorded)
    (hrecords : s'.store.records = s.store.records.insert m.mailboxId (Store.recordOf m))
    (hmailboxes : s'.mailboxes = s.mailboxes.insert m.mailboxId m) : s'.Persisted := by
  intro id
  rw [hrecords, hmailboxes, Table.lookup_insert_if, Table.lookup_insert_if]
  split_ifs with hid
  · simp [Store.decode_recordOf hm]
  · exact h id

theorem Persisted.erase {id : Octets 32} (h : s.Persisted)
    (hrecords : s'.store.records = s.store.records.erase id)
    (hmailboxes : s'.mailboxes = s.mailboxes.erase id) : s'.Persisted := by
  intro j
  rw [hrecords, hmailboxes, Table.lookup_erase_if, Table.lookup_erase_if]
  split_ifs with hid
  · rfl
  · exact h j

theorem Change.persisted (hchange : Change s s') (h : s.Persisted) : s'.Persisted := by
  cases hchange with
  | limited | disabled | spent | bound | left | attached => exact h
  | installed hfits => exact h.put hfits.recorded rfl rfl
  | @replaced id m m' _ hfits _ =>
    refine h.put hfits.recorded rfl ?_
    rw [hfits.named]
    rfl
  | removed => exact h.erase rfl rfl

theorem Changes.persisted (hchanges : Changes s s') (h : s.Persisted) : s'.Persisted := by
  induction hchanges with
  | refl => exact h
  | tail _ hchange ih => exact hchange.persisted ih

/-- Only the writes left to refuse, and the limiter, differ. -/
def OnlySpent (s s' : Relay C L) : Prop := ∃ limiter, s' = { s.spent with limiter }

/-- A command the store refused has changed nothing. -/
theorem handle_refused [RateLimiter C L] (h : s.Sound) {connection : ConnectionId}
    {peerAddress : Bytes} {now : UInt64} {randomness : RelayRandomness} {message : ClientMessage}
    (hrefused : Call.verdict (handle connection peerAddress now randomness message s) =
      .error (.error .storage)) :
    s.OnlySpent (Call.after (handle connection peerAddress now randomness message s)) := by
  have hhandled := handle_handled h connection peerAddress now randomness message
  generalize handle connection peerAddress now randomness message s = r at hhandled hrefused
  cases hhandled with
  | limited => cases hrefused
  | turnedAway => cases hrefused
  | @ran limiter _ _ houtcome =>
    cases houtcome with
    | refused => exact ⟨limiter, rfl⟩
    | aborted => cases hrefused
    | replied | bound | retained | claimed | crowded | opened | member | expired =>
      cases hrefused

/-! ### Loading -/

omit [Primitives] in
/-- What is retained after a list was registered. -/
theorem lookup_registered {loaded : List Mailbox} (hfold : loaded.foldlM register s = .ok s')
    (id : Octets 32) (m : Mailbox) : s'.mailboxes.lookup id = some m ↔
      s.mailboxes.lookup id = some m ∨ (m ∈ loaded ∧ m.mailboxId = id) := by
  induction loaded generalizing s with
  | nil =>
    obtain rfl := Except.ok.inj hfold
    simp
  | cons first loaded ih =>
    rw [List.foldlM_cons, except_bind_eq_ok] at hfold
    obtain ⟨next, hnext, hrest⟩ := hfold
    obtain ⟨hreg, rfl⟩ := register_eq_ok.mp hnext
    have hlookup : (s.registered first).mailboxes.lookup id =
        if id = first.mailboxId then some first else s.mailboxes.lookup id :=
      Table.lookup_insert_if s.mailboxes first.mailboxId id first
    rw [ih hrest, hlookup, List.mem_cons]
    split_ifs with hid
    · have hnone : s.mailboxes.lookup id = none := Finmap.lookup_eq_none.mpr (hid ▸ hreg.new)
      rw [hnone]
      constructor
      · rintro (hm | hm)
        · obtain rfl := Option.some.inj hm
          exact .inr ⟨.inl rfl, hid.symm⟩
        · exact .inr ⟨.inr hm.1, hm.2⟩
      · rintro (hm | ⟨rfl | hm, hmid⟩)
        · cases hm
        · exact .inl rfl
        · exact .inr ⟨hm, hmid⟩
    · constructor
      · rintro (hm | hm)
        · exact .inl hm
        · exact .inr ⟨.inr hm.1, hm.2⟩
      · rintro (hm | ⟨rfl | hm, hmid⟩)
        · exact .inl hm
        · exact absurd hmid.symm hid
        · exact .inr ⟨hm, hmid⟩

/-- What a keyed store loads. -/
theorem mem_load {store : MailboxStore} (hkeyed : store.Keyed) {loaded : List Mailbox}
    (hload : store.load = .ok loaded) (id : Octets 32) (m : Mailbox) :
    m ∈ loaded ∧ m.mailboxId = id ↔
      (store.records.lookup id).map Store.decode = some (.ok m) := by
  constructor
  · rintro ⟨hm, hid⟩
    obtain ⟨key, -, hkey⟩ := mapM_mem hload hm
    cases hrecord : store.records.lookup key with
    | none => simp [hrecord] at hkey
    | some record =>
      rw [hrecord] at hkey
      have hsame : key = id := (hkeyed key record m hrecord hkey).symm.trans hid
      rw [← hsame, hrecord, Option.map_some]
      exact congrArg some hkey
  · intro hdecoded
    obtain ⟨record, hrecord, hm⟩ := Option.map_eq_some_iff.mp hdecoded
    have hkey : id ∈ store.records.keys.sort idLe := by
      rw [Finset.mem_sort]
      exact Finmap.mem_keys.mpr (Finmap.mem_of_lookup_eq_some hrecord)
    obtain ⟨m', hmem, hm'⟩ := mapM_mem_left hload hkey
    rw [hrecord] at hm'
    obtain rfl : m' = m := Except.ok.inj (hm'.symm.trans hm)
    exact ⟨hmem, hkeyed id record m' hrecord hm⟩

theorem withStore_persisted [RateLimiter C L] {config : RelayConfig C} {store : MailboxStore}
    (hkeyed : store.Keyed) (h : withStore config store = .ok s) : s.Persisted := by
  obtain ⟨limiter, loaded, -, -, hload, hfold, -⟩ := withStore_eq_ok.mp h
  have hstore : s.store = store := (withStore_sound h).2.2.1
  have hretained : ∀ id m, s.mailboxes.lookup id = some m ↔
      (store.records.lookup id).map Store.decode = some (.ok m) := by
    intro id m
    rw [lookup_registered hfold, mem_load hkeyed hload]
    simp [unloaded]
  intro id
  rw [hstore]
  cases hm : s.mailboxes.lookup id with
  | some m => exact (hretained id m).mp hm
  | none =>
    cases hrecord : store.records.lookup id with
    | none => rfl
    | some record =>
      have hkey : id ∈ store.records.keys.sort idLe := by
        rw [Finset.mem_sort]
        exact Finmap.mem_keys.mpr (Finmap.mem_of_lookup_eq_some hrecord)
      obtain ⟨m, -, hdecoded⟩ := mapM_mem_left hload hkey
      rw [hrecord] at hdecoded
      have hread : (store.records.lookup id).map Store.decode = some (.ok m) := by
        rw [hrecord, Option.map_some]
        exact congrArg some hdecoded
      have hm' := (hretained id m).mpr hread
      rw [hm] at hm'
      cases hm'

/-! ### Loading what was persisted -/

theorem Persisted.keyed (h : s.Persisted) (hs : s.Indexed) : s.store.Keyed := by
  intro id record m hrecord hdecoded
  have hboth := h id
  rw [hrecord, Option.map_some, hdecoded] at hboth
  obtain ⟨m', hm', hsame⟩ := Option.map_eq_some_iff.mp hboth.symm
  obtain rfl := Except.ok.inj hsame
  exact hs.named id m' hm'

/-- The store of a persisted relay loads, each mailbox once. -/
theorem Persisted.load (h : s.Persisted) (hs : s.Indexed) : ∃ loaded, s.store.load = .ok loaded ∧
    loaded.map Mailbox.mailboxId = s.store.records.keys.sort idLe ∧
    ∀ m ∈ loaded, s.mailboxes.lookup m.mailboxId = some m := by
  obtain ⟨read, hread, hrecords⟩ : ∃ read : Octets 32 → Except StoreError Mailbox,
      s.store.load = (s.store.records.keys.sort idLe).mapM read ∧
        ∀ id record, s.store.records.lookup id = some record → read id = Store.decode record :=
    ⟨_, rfl, fun id record hrecord => by simp only [hrecord]⟩
  have hretained : ∀ id ∈ s.store.records.keys.sort idLe, ∃ m,
      s.mailboxes.lookup id = some m ∧ read id = .ok m := by
    intro id hid
    rw [Finset.mem_sort, Finmap.mem_keys] at hid
    obtain ⟨record, hrecord⟩ := Finmap.mem_iff.mp hid
    have hboth := h id
    rw [hrecord, Option.map_some] at hboth
    obtain ⟨m, hm, hdecoded⟩ := Option.map_eq_some_iff.mp hboth.symm
    exact ⟨m, hm, (hrecords id record hrecord).trans hdecoded.symm⟩
  rw [hread]
  obtain ⟨loaded, hload⟩ := mapM_exists fun id hid => (hretained id hid).imp fun _ h => h.2
  have hsame : ∀ id ∈ s.store.records.keys.sort idLe, ∀ m, read id = .ok m →
      s.mailboxes.lookup id = some m := by
    intro id hid m hm
    obtain ⟨m', hlookup, hm'⟩ := hretained id hid
    obtain rfl := Except.ok.inj (hm.symm.trans hm')
    exact hlookup
  refine ⟨loaded, hload, ?_, ?_⟩
  · have hall := List.forall₂_iff_get.mp (mapM_eq_ok.mp hload)
    apply List.ext_getElem
    · rw [List.length_map]
      exact hall.1.symm
    · intro i hi hi'
      rw [List.getElem_map]
      have hread := hall.2 i hi' (by rwa [List.length_map] at hi)
      exact hs.named _ _ (hsame _ (List.get_mem _ _) _ hread)
  · intro m hm
    obtain ⟨id, hid, hread⟩ := mapM_mem hload hm
    have hlookup := hsame id hid m hread
    rw [hs.named id m hlookup]
    exact hlookup

/-- A retained mailbox clashes with no part of the relay that lacks it. -/
theorem Sound.registers {part : Relay C L} (h : s.Sound) (hpart : part.Indexed)
    (hsub : ∀ id m, part.mailboxes.lookup id = some m → s.mailboxes.lookup id = some m)
    (hm : s.mailboxes.lookup m.mailboxId = some m) (hnew : m.mailboxId ∉ part.mailboxes) :
    Registers part m := by
  refine ⟨?_, h.nodup _ m hm, ?_, ?_, hnew⟩
  · intro n hn hused
    obtain ⟨id, hid⟩ := Finmap.mem_iff.mp hused
    obtain ⟨m', hm', hn'⟩ := (hpart.nameplates n id).mp hid
    have hother := (h.nameplates n id).mpr ⟨m', hsub id m' hm', hn'⟩
    rw [(h.nameplates n m.mailboxId).mpr ⟨m, hm, hn⟩] at hother
    rw [Option.some.inj hother] at hnew
    exact hnew (Finmap.mem_of_lookup_eq_some hm')
  · intro hash hmem hused
    obtain ⟨id, m', hm', hmem'⟩ := (hpart.hashes hash).mp hused
    have hsame := h.disjoint _ m id m' hm (hsub id m' hm') hash hmem hmem'
    rw [hsame] at hnew
    exact hnew (Finmap.mem_of_lookup_eq_some hm')
  · -- the part with this mailbox is still inside the whole
    have hinside : ∀ id m', (part.mailboxes.insert m.mailboxId m).lookup id = some m' →
        s.mailboxes.lookup id = some m' := by
      intro id m' hlookup
      rw [Table.lookup_insert_if] at hlookup
      split_ifs at hlookup with hid
      · rw [hid, hm]
        exact hlookup
      · exact hsub id m' hlookup
    have hle := Table.total_mono Mailbox.queueBytes hinside
    rw [Table.total_insert_new Mailbox.queueBytes hnew, ← hpart.queued, ← h.queued] at hle
    have hroom := h.room
    have hcap := s.config.capacity.queueBytes.toNat_lt
    omega

theorem Sound.foldlM_register {part : Relay C L} (h : s.Sound) (hpart : part.Indexed)
    (hsub : ∀ id m, part.mailboxes.lookup id = some m → s.mailboxes.lookup id = some m)
    {loaded : List Mailbox} (hloaded : ∀ m ∈ loaded, s.mailboxes.lookup m.mailboxId = some m)
    (hnodup : (loaded.map Mailbox.mailboxId).Nodup)
    (hnew : ∀ m ∈ loaded, m.mailboxId ∉ part.mailboxes) :
    ∃ built, loaded.foldlM register part = .ok built := by
  induction loaded generalizing part with
  | nil => exact ⟨part, rfl⟩
  | cons first loaded ih =>
    have hfirst := hloaded first List.mem_cons_self
    have hreg := h.registers hpart hsub hfirst (hnew first List.mem_cons_self)
    have hlookup : ∀ id, (part.registered first).mailboxes.lookup id =
        if id = first.mailboxId then some first else part.mailboxes.lookup id :=
      fun id => Table.lookup_insert_if part.mailboxes first.mailboxId id first
    rw [List.map_cons, List.nodup_cons] at hnodup
    rw [List.foldlM_cons, register_eq_ok.mpr ⟨hreg, rfl⟩, ok_bind]
    apply ih (hpart.registered (h.recorded _ first hfirst) hreg)
    · intro id m hm
      rw [hlookup] at hm
      split_ifs at hm with hid
      · rw [hid, hfirst]
        exact hm
      · exact hsub id m hm
    · exact fun m hm => hloaded m (List.mem_cons_of_mem first hm)
    · exact hnodup.2
    · intro m hm hmem
      obtain hsame | hmem := Finmap.mem_insert.mp hmem
      · exact hnodup.1 (List.mem_map.mpr ⟨m, hm, hsame⟩)
      · exact hnew m (List.mem_cons_of_mem first hm) hmem

/-- The retained mailboxes determine the indexes. -/
theorem Indexed.unique (h : s.Indexed) (h' : s'.Indexed) (hsame : s'.mailboxes = s.mailboxes) :
    s'.nameplates = s.nameplates ∧ s'.membershipHashes = s.membershipHashes ∧
      s'.expiries = s.expiries ∧ s'.queueBytes = s.queueBytes := by
  refine ⟨?_, ?_, ?_, ?_⟩
  · apply Finmap.ext_lookup
    intro n
    ext id
    rw [h.nameplates, h'.nameplates, hsame]
  · ext hash
    rw [h.hashes, h'.hashes, hsame]
  · ext ⟨expiresAt, id⟩
    rw [h.expiries, h'.expiries, hsame]
  · rw [h.queued, h'.queued, hsame]

variable [RateLimiter C L]

/-- A relay built over the store of a sound and persisted one, in the same configuration. -/
theorem withStore_restarts {config : RelayConfig C} {store : MailboxStore} {s₀ : Relay C L}
    (hstart : withStore config store = .ok s₀) (h : s.Sound) (hpersisted : s.Persisted)
    (hcapacity : s.config.capacity = config.capacity) :
    ∃ s' : Relay C L, withStore config s.store = .ok s' ∧ s'.mailboxes = s.mailboxes := by
  obtain ⟨limiter, -, hconfig, hlimiter, -⟩ := withStore_eq_ok.mp hstart
  obtain ⟨loaded, hload, hids, hloaded⟩ := hpersisted.load h.toIndexed
  have hnodup : (loaded.map Mailbox.mailboxId).Nodup := by
    rw [hids]
    exact Finset.sort_nodup _ _
  obtain ⟨built, hbuilt⟩ := h.foldlM_register (unloaded_indexed config limiter s.store)
    (by simp [unloaded]) hloaded hnodup (fun _ _ => Finmap.notMem_empty)
  have hkeyed := hpersisted.keyed h.toIndexed
  have hsame : built.mailboxes = s.mailboxes := by
    apply Finmap.ext_lookup
    intro id
    ext m
    rw [lookup_registered hbuilt, mem_load hkeyed hload, hpersisted id]
    simp [unloaded]
  have hindexed :=
    (Relay.foldlM_register (unloaded_indexed config limiter s.store) (load_recorded hload) hbuilt).1
  have hqueue := (h.toIndexed.unique hindexed hsame).2.2.2
  refine ⟨built, withStore_eq_ok.mpr ⟨limiter, loaded, hconfig, hlimiter, hload, hbuilt, ?_, ?_⟩,
    hsame⟩
  · rw [hsame, ← hcapacity]
    exact h.size
  · rw [hqueue, ← hcapacity]
    exact h.room

omit [RateLimiter C L] in
theorem Changes.capacity (hchanges : Changes s s') :
    s'.config.capacity = s.config.capacity := by
  induction hchanges with
  | refl => rfl
  | tail _ hchange ih =>
    rw [← ih]
    cases hchange <;> rfl

theorem run_persisted (h : s.Sound) (hpersisted : s.Persisted) (calls : List RelayCall) :
    (Runs.after serve s calls).Persisted ∧
      (Runs.after serve s calls).config.capacity = s.config.capacity := by
  refine Runs.invariant (P := fun _ t => t.Persisted ∧ t.config.capacity = s.config.capacity)
    serve ⟨hpersisted, rfl⟩ ?_ calls
  rintro calls call ⟨hbefore, hcapacity⟩
  have hchanges := serve_changes (run_sound h calls) call
  exact ⟨hchanges.persisted hbefore, hchanges.capacity.trans hcapacity⟩

end Relay
end CbclPairing

namespace CbclPairing
open Calls

section Sample

attribute [local instance] Primitives.transparent
attribute [local instance] RateLimiter.idle

theorem MailboxStore.keyed_empty (faults : List Bool) : MailboxStore.Keyed ⟨∅, faults⟩ := by
  intro id record m hrecord
  simp at hrecord

end Sample
end CbclPairing
