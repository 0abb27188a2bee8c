import CbclPairing.Relay.FileStore

/-! What the directory-backed store keeps through failed calls and crashes, and the store
of whole writes it stands for. -/
namespace CbclPairing
open Codec Calls Tables Disks

variable [Primitives]

namespace FileMailboxStore

/-- A change of one record. -/
inductive StoreCall where
  | put (m : Mailbox)
  | remove (mailboxId : Octets 32)

namespace StoreCall

def mailboxId : StoreCall → Octets 32
  | .put m => m.mailboxId
  | .remove mailboxId => mailboxId

/-- The record the change asks for. -/
def record : StoreCall → Option Bytes
  | .put m => some (Store.recordOf m)
  | .remove _ => none

/-- Mailboxes come from the relay. -/
def Valid : StoreCall → Prop
  | .put m => m.Recorded
  | .remove _ => True

def perform (process : UInt32) : StoreCall → Call Halt Directory Unit
  | .put m => FileMailboxStore.put process m
  | .remove mailboxId => FileMailboxStore.remove mailboxId

/-- The change is made and safe: it answers well, and is no removal of a record that was
not there. -/
def Settles (process : UInt32) (c : StoreCall) (d : Directory) : Prop :=
  (Call.verdict (c.perform process d)).isOk = true ∧
    (c.record.isSome = true ∨ (d.entries.lookup (path c.mailboxId)).isSome = true)

variable {c : StoreCall} {d : Directory} {S : Set (Option Bytes)}

theorem perform_keeps (process : UInt32) (hc : c.Valid) {name : Bytes}
    (hname : name ≠ path c.mailboxId) (htemporary : isStoreTemporary name = false) :
    Disk.Keeps name d (Call.after (c.perform process d)) := by
  cases c with
  | put m =>
    refine put_keeps process hc hname ?_ d
    rintro rfl
    rw [isStoreTemporary_temporaryPath] at htemporary
    cases htemporary
  | remove mailboxId => exact remove_keeps hname d

/-- After a change the record is the one asked for, or, unless the change is safe, one it
was before. -/
theorem perform_shows (process : UInt32) (hc : c.Valid)
    (h : Disk.Shows (path c.mailboxId) S d) :
    Disk.Shows (path c.mailboxId) {x | x = c.record ∨ ¬c.Settles process d ∧ x ∈ S}
      (Call.after (c.perform process d)) := by
  have hmixed : ∀ d' : Directory, (∀ view' ∈ d'.views,
      view'.lookup (path c.mailboxId) = c.record.map .whole ∨
        ∃ view ∈ d.views, view'.lookup (path c.mailboxId) = view.lookup (path c.mailboxId)) →
      ¬c.Settles process d →
      Disk.Shows (path c.mailboxId) {x | x = c.record ∨ ¬c.Settles process d ∧ x ∈ S} d' := by
    intro d' hviews hunsettled view' hview'
    rcases hviews view' hview' with hnew | ⟨view, hview, hsame⟩
    · exact ⟨c.record, .inl rfl, hnew⟩
    · obtain ⟨x, hx, hlookup⟩ := h view hview
      exact ⟨x, .inr ⟨hunsettled, hx⟩, hsame.trans hlookup⟩
  have hkept : ∀ d' : Directory, Disk.Keeps (path c.mailboxId) d d' →
      ¬c.Settles process d →
      Disk.Shows (path c.mailboxId) {x | x = c.record ∨ ¬c.Settles process d ∧ x ∈ S} d' :=
    fun d' hkeeps => hmixed d' fun view' hview' => .inr (hkeeps.views view' hview')
  have hsettled : ∀ d' : Directory, d'.past = [] →
      d'.entries.lookup (path c.mailboxId) = c.record.map .whole →
      Disk.Shows (path c.mailboxId) {x | x = c.record ∨ ¬c.Settles process d ∧ x ∈ S} d' :=
    fun d' hpast hentry => (Disk.shows_settled hpast hentry).mono (by rintro x rfl; exact .inl rfl)
  have hfailed : ∀ {e : Halt} {d' : Directory}, c.perform process d = .error e d' →
      ¬c.Settles process d := by
    intro e d' hresult hsettles
    have := hsettles.1
    rw [hresult] at this
    cases this
  cases c with
  | put m =>
    have houtcome := put_outcome process hc d
    generalize hresult : FileMailboxStore.put process m d = r at houtcome
    have hperform : (StoreCall.put m).perform process d = r := hresult
    rw [hperform]
    cases houtcome with
    | stored hpast hentry => exact hsettled _ hpast hentry
    | kept hkeeps => exact hkept _ hkeeps (hfailed hperform)
    | unsynced _ hviews => exact hmixed _ hviews (hfailed hperform)
  | remove mailboxId =>
    have houtcome := remove_outcome mailboxId d
    generalize hresult : FileMailboxStore.remove mailboxId d = r at houtcome
    have hperform : (StoreCall.remove mailboxId).perform process d = r := hresult
    rw [hperform]
    cases houtcome with
    | removed _ hpast hentry => exact hsettled _ hpast hentry
    | missing hnone hkeeps =>
      refine hkept _ hkeeps ?_
      rintro ⟨-, hsome | hsome⟩
      · cases hsome
      · have hfound : (d.entries.lookup (path mailboxId)).isSome = true := hsome
        rw [hnone] at hfound
        cases hfound
    | kept hkeeps => exact hkept _ hkeeps (hfailed hperform)
    | unsynced _ hviews => exact hmixed _ hviews (hfailed hperform)

end StoreCall

/-! ### Loading -/

/-- Every record the directory may come to hold is one a mailbox was written as, under the
name of its identifier. -/
def Sound (d : Directory) : Prop := ∀ name, isStoreTemporary name = false →
  extension name = some (ascii "cbor") →
  Disk.Shows name {x | ∀ bytes ∈ x, ∃ m : Mailbox, m.Recorded ∧ name = path m.mailboxId ∧
    bytes = Store.recordOf m} d

/-- A mailbox that is on record. -/
def Holds (d : Directory) (m : Mailbox) : Prop :=
  m.Recorded ∧ d.entries.lookup (path m.mailboxId) = some (.whole (Store.recordOf m))

/-- One identifier has one mailbox on record. -/
theorem Holds.unique {d : Directory} {m m' : Mailbox} (h : Holds d m) (h' : Holds d m')
    (hid : m.mailboxId = m'.mailboxId) : m = m' := by
  have hrecord := h.2
  rw [hid, h'.2] at hrecord
  have hsame := File.whole_injective (Option.some.inj hrecord)
  have hdecode := Store.decode_recordOf h.1
  rw [← hsame, Store.decode_recordOf h'.1] at hdecode
  exact (Except.ok.inj hdecode).symm

variable {d d' : Directory} {names : List Bytes} {name : Bytes}

theorem Sound.keeps (h : Sound d)
    (hkeeps : ∀ name, isStoreTemporary name = false → Disk.Keeps name d d') : Sound d' :=
  fun name htemporary hextension => (hkeeps name htemporary).shows (h name htemporary hextension)

theorem Sound.entry (h : Sound d) (htemporary : isStoreTemporary name = false)
    (hextension : extension name = some (ascii "cbor")) {f : File UInt8}
    (hfound : d.entries.lookup name = some f) :
    ∃ m : Mailbox, name = path m.mailboxId ∧ Holds d m ∧ f = .whole (Store.recordOf m) := by
  obtain ⟨x, hx, hlookup⟩ := (h name htemporary hextension).entry
  rw [hfound] at hlookup
  cases x with
  | none => cases hlookup
  | some bytes =>
    obtain rfl := Option.some.inj hlookup
    obtain ⟨m, hm, rfl, rfl⟩ := hx bytes rfl
    exact ⟨m, rfl, ⟨hm, hfound⟩, rfl⟩

omit [Primitives] in
theorem ne_of_temporary {other : Bytes} (hname : isStoreTemporary name = false)
    (hother : isStoreTemporary other = true) : name ≠ other := by
  rintro rfl
  rw [hname] at hother
  cases hother

theorem loadEntry_keeps {other : Bytes} (hname : isStoreTemporary other = true → name ≠ other)
    (d : Directory) : Disk.Keeps name d (Call.after (loadEntry other d)) := by
  unfold loadEntry
  split_ifs with htemporary hextension
  · apply Disk.keeps_bind (orIo_keeps (Disk.unlink_keeps (hname htemporary))) fun _ => ?_
    apply Disk.keeps_bind (orIo_keeps Disk.syncDirectory_keeps) fun _ => ?_
    exact Disk.Keeps.refl name
  · exact Disk.Keeps.refl name d
  · apply Disk.keeps_bind (orIo_keeps Disk.read_keeps) fun bytes => ?_
    apply Disk.keeps_bind (fun d => ?_) fun mailbox d => ?_
    · cases (Store.decode bytes).mapError Halt.failed <;> exact Disk.Keeps.refl name d
    · split_ifs <;> exact Disk.Keeps.refl name d

theorem loadEach_keeps (hname : isStoreTemporary name = false) (names : List Bytes)
    (d : Directory) : Disk.Keeps name d (Call.after (loadEach names d)) := by
  induction names generalizing d with
  | nil => exact Disk.Keeps.refl name d
  | cons other names ih =>
    apply Disk.keeps_bind (orIo_keeps Disk.inspect_keeps) fun _ => ?_
    apply Disk.keeps_bind (loadEntry_keeps (ne_of_temporary hname)) fun _ => ?_
    apply Disk.keeps_bind ih fun _ => ?_
    exact Disk.Keeps.refl name

/-- Loading touches no record. -/
theorem load_keeps (hname : isStoreTemporary name = false) (names : List Bytes) (d : Directory) :
    Disk.Keeps name d (Call.after (load names d)) := by
  apply Disk.keeps_bind (orIo_keeps Disk.inspect_keeps) fun _ => ?_
  apply Disk.keeps_bind (loadEach_keeps hname names) fun _ => ?_
  exact Disk.Keeps.refl name

/-- What loading one entry can come to. -/
inductive Loaded (name : Bytes) (d : Directory) : Except Halt (Option Mailbox) → Prop
  | passed : (∀ m : Mailbox, name ≠ path m.mailboxId) → Loaded name d (.ok none)
  | read {m : Mailbox} : name = path m.mailboxId → Holds d m → Loaded name d (.ok (some m))
  | failed {e : Halt} : e ≠ .failed .malformed → Loaded name d (.error e)

omit [Primitives] in
theorem ofStop_ne (stop : Stop) : Halt.ofStop stop ≠ .failed .malformed := by
  cases stop <;> simp [Halt.ofStop]

theorem loadEntry_outcome (h : Sound d) (name : Bytes) :
    Loaded name d (Call.verdict (loadEntry name d)) := by
  unfold loadEntry
  split_ifs with htemporary hextension
  · -- a leftover is no record
    have hname : ∀ m : Mailbox, name ≠ path m.mailboxId := by
      rintro m rfl
      rw [isStoreTemporary_path] at htemporary
      cases htemporary
    cases hunlink : Disk.unlink name d with
    | error stop d₁ =>
      rw [Call.run_bind_error (orIo_error.mpr ⟨stop, hunlink, rfl⟩)]
      exact .failed (ofStop_ne stop)
    | ok _ d₁ =>
      rw [Call.run_bind (orIo_ok.mpr hunlink)]
      cases hdirectory : Disk.syncDirectory d₁ with
      | error stop d₂ =>
        rw [Call.run_bind_error (orIo_error.mpr ⟨stop, hdirectory, rfl⟩)]
        exact .failed (ofStop_ne stop)
      | ok _ d₂ =>
        rw [Call.run_bind (orIo_ok.mpr hdirectory)]
        exact .passed hname
  · refine .passed ?_
    rintro m rfl
    exact hextension (extension_path m.mailboxId)
  · rw [not_not] at hextension
    rw [Bool.not_eq_true] at htemporary
    cases hread : Disk.read name d with
    | error stop d₁ =>
      rw [Call.run_bind_error (orIo_error.mpr ⟨stop, hread, rfl⟩)]
      exact .failed (ofStop_ne stop)
    | ok bytes d₁ =>
      obtain ⟨f, hfound, hcontent⟩ := Disk.read_ok hread
      obtain ⟨m, rfl, hm, rfl⟩ := h.entry htemporary hextension hfound
      obtain rfl : Store.recordOf m = bytes := hcontent
      have hdecode : (Store.decode (Store.recordOf m)).mapError Halt.failed = .ok m := by
        rw [Store.decode_recordOf hm.1]
        rfl
      rw [Call.run_bind (orIo_ok.mpr hread), hdecode, Call.run_bind (Call.run_ofExcept_ok m d₁),
        if_neg (by simp)]
      exact .read rfl hm

theorem Holds.keeps {m : Mailbox} (hkeeps : Disk.Keeps (path m.mailboxId) d d') :
    Holds d' m ↔ Holds d m := by
  rw [Holds, Holds, hkeeps.entry]

/-- What loading some entries can come to: the mailboxes on record under them, each once. -/
structure LoadedEach (names : List Bytes) (d : Directory) (verdict : Except Halt (List Mailbox)) :
    Prop where
  error : verdict ≠ .error (.failed .malformed)
  held : ∀ loaded, verdict = .ok loaded → ∀ m, m ∈ loaded ↔ Holds d m ∧ path m.mailboxId ∈ names
  distinct : ∀ loaded, verdict = .ok loaded → names.Nodup → (loaded.map Mailbox.mailboxId).Nodup

omit [Primitives] in
theorem LoadedEach.failed [Primitives] {e : Halt} (h : e ≠ .failed .malformed) :
    LoadedEach names d (.error e) :=
  ⟨by simpa using h, fun _ hok => (by cases hok), fun _ hok => (by cases hok)⟩

theorem LoadedEach.passed {loaded : List Mailbox} (hname : ∀ m : Mailbox, name ≠ path m.mailboxId)
    (h : LoadedEach names d (.ok loaded)) : LoadedEach (name :: names) d (.ok loaded) := by
  refine ⟨by simp, ?_, ?_⟩
  · rintro _ ⟨⟩ m
    have hother : path m.mailboxId ≠ name := (hname m).symm
    rw [h.held loaded rfl m, List.mem_cons]
    simp only [hother, false_or]
  · rintro _ ⟨⟩ hnames
    exact h.distinct loaded rfl (List.nodup_cons.mp hnames).2

theorem LoadedEach.read {m : Mailbox} {loaded : List Mailbox} (hname : name = path m.mailboxId)
    (hm : Holds d m) (h : LoadedEach names d (.ok loaded)) :
    LoadedEach (name :: names) d (.ok (m :: loaded)) := by
  have hmem := h.held loaded rfl
  refine ⟨by simp, ?_, ?_⟩
  · rintro _ ⟨⟩ m'
    rw [List.mem_cons, hmem m', List.mem_cons]
    constructor
    · rintro (rfl | ⟨hm', hlisted⟩)
      · exact ⟨hm, .inl hname.symm⟩
      · exact ⟨hm', .inr hlisted⟩
    · rintro ⟨hm', heq | hlisted⟩
      · exact .inl (hm'.unique hm (path_injective (heq.trans hname)))
      · exact .inr ⟨hm', hlisted⟩
  · rintro _ ⟨⟩ hnames
    obtain ⟨hnew, hnames⟩ := List.nodup_cons.mp hnames
    rw [List.map_cons, List.nodup_cons]
    refine ⟨fun hmem' => ?_, h.distinct loaded rfl hnames⟩
    obtain ⟨m', hm', hid⟩ := List.mem_map.mp hmem'
    have hlisted := ((hmem m').mp hm').2
    rw [hid, ← hname] at hlisted
    exact hnew hlisted

theorem LoadedEach.keeps {verdict : Except Halt (List Mailbox)} (h : LoadedEach names d' verdict)
    (hkeeps : ∀ name, isStoreTemporary name = false → Disk.Keeps name d d') :
    LoadedEach names d verdict := by
  refine ⟨h.error, fun loaded hok m => ?_, h.distinct⟩
  rw [h.held loaded hok m, Holds.keeps (hkeeps _ (isStoreTemporary_path _))]

theorem loadEach_outcome (h : Sound d) (names : List Bytes) :
    LoadedEach names d (Call.verdict (loadEach names d)) := by
  induction names generalizing d with
  | nil => exact ⟨by simp [loadEach], by rintro _ ⟨⟩; simp, by rintro _ ⟨⟩; simp⟩
  | cons name names ih =>
    rw [loadEach]
    cases hinspect : orIo Disk.inspect d with
    | error e d₁ =>
      obtain ⟨stop, -, rfl⟩ := orIo_error.mp hinspect
      rw [Call.run_bind_error hinspect]
      exact .failed (ofStop_ne stop)
    | ok _ d₁ =>
      rw [Call.run_bind hinspect]
      have hkeeps₁ : ∀ name, isStoreTemporary name = false → Disk.Keeps name d d₁ := by
        intro name _
        have hkeeps : Disk.Keeps name d _ := orIo_keeps Disk.inspect_keeps d
        rwa [hinspect] at hkeeps
      apply LoadedEach.keeps _ hkeeps₁
      have hsound₁ := h.keeps hkeeps₁
      have houtcome := loadEntry_outcome hsound₁ name
      cases hentry : loadEntry name d₁ with
      | error e d₂ =>
        rw [Call.run_bind_error hentry]
        rw [hentry] at houtcome
        cases houtcome with
        | failed hne => exact .failed hne
      | ok found d₂ =>
        rw [Call.run_bind hentry]
        have hkeeps₂ : ∀ name, isStoreTemporary name = false → Disk.Keeps name d₁ d₂ := by
          intro other hfalse
          have hne : isStoreTemporary name = true → other ≠ name := ne_of_temporary hfalse
          have hkeeps := loadEntry_keeps hne d₁
          rwa [hentry] at hkeeps
        have hrest := (ih (hsound₁.keeps hkeeps₂)).keeps hkeeps₂
        cases hnames : loadEach names d₂ with
        | error e d₃ =>
          rw [Call.run_bind_error hnames]
          rw [hnames] at hrest
          exact .failed (by simpa using hrest.error)
        | ok rest d₃ =>
          rw [Call.run_bind hnames]
          rw [hnames] at hrest
          rw [hentry] at houtcome
          cases houtcome with
          | passed hname => exact hrest.passed hname
          | read hname hm => exact hrest.read hname hm

/-- The names of a directory, in any order. -/
structure Lists (names : List Bytes) (d : Directory) : Prop where
  nodup : names.Nodup
  mem : ∀ name, name ∈ names ↔ (d.entries.lookup name).isSome = true

/-- The mailboxes of a directory, in the order of their identifiers. -/
structure Restored (d : Directory) (loaded : List Mailbox) : Prop where
  held : ∀ m, m ∈ loaded ↔ Holds d m
  sorted : (loaded.map Mailbox.mailboxId).Pairwise fun a b => idLe a b ∧ a ≠ b

omit [Primitives] in
/-- Sorting a list of distinct mailboxes by identifier. -/
theorem sorted_distinct {records : List Mailbox}
    (hdistinct : (records.map Mailbox.mailboxId).Nodup) :
    ((records.mergeSort fun m m' => decide (idLe m.mailboxId m'.mailboxId)).map
      Mailbox.mailboxId).Pairwise fun a b => idLe a b ∧ a ≠ b := by
  have hsorted : (records.mergeSort fun m m' : Mailbox =>
      decide (idLe m.mailboxId m'.mailboxId)).Pairwise fun m m' =>
        decide (idLe m.mailboxId m'.mailboxId) = true := by
    apply List.pairwise_mergeSort
    · intro a b c hab hbc
      rw [decide_eq_true_eq] at *
      exact Nat.le_trans hab hbc
    · intro a b
      rw [Bool.or_eq_true, decide_eq_true_eq, decide_eq_true_eq]
      exact le_total (ofBe a.mailboxId.val) (ofBe b.mailboxId.val)
  have hperm := List.mergeSort_perm records
    (fun m m' : Mailbox => decide (idLe m.mailboxId m'.mailboxId))
  have hdistinct' := (hperm.map Mailbox.mailboxId).nodup_iff.mpr hdistinct
  rw [List.pairwise_map]
  rw [List.Nodup, List.pairwise_map] at hdistinct'
  refine (hsorted.and hdistinct').imp fun h => ⟨?_, h.2⟩
  exact of_decide_eq_true h.1

/-- A load finds nothing malformed, and when it answers, it answers with all that is on
record. -/
theorem load_outcome (h : Sound d) (names : List Bytes) :
    Call.verdict (load names d) ≠ .error (.failed .malformed) ∧
    ∀ loaded, Call.verdict (load names d) = .ok loaded → Lists names d → Restored d loaded := by
  rw [load]
  cases hinspect : orIo Disk.inspect d with
  | error e d₁ =>
    obtain ⟨stop, -, rfl⟩ := orIo_error.mp hinspect
    rw [Call.run_bind_error hinspect]
    exact ⟨by simpa using ofStop_ne stop, fun _ hok => (by cases hok)⟩
  | ok _ d₁ =>
    rw [Call.run_bind hinspect]
    have hkeeps₁ : ∀ name, isStoreTemporary name = false → Disk.Keeps name d d₁ := by
      intro name _
      have hkeeps : Disk.Keeps name d _ := orIo_keeps Disk.inspect_keeps d
      rwa [hinspect] at hkeeps
    have heach := (loadEach_outcome (h.keeps hkeeps₁) names).keeps hkeeps₁
    cases hrecords : loadEach names d₁ with
    | error e d₂ =>
      rw [Call.run_bind_error hrecords]
      rw [hrecords] at heach
      exact ⟨heach.error, fun _ hok => (by cases hok)⟩
    | ok records d₂ =>
      rw [Call.run_bind hrecords]
      rw [hrecords] at heach
      refine ⟨by simp, ?_⟩
      rintro _ ⟨⟩ hlists
      refine ⟨fun m => ?_, sorted_distinct (heach.distinct records rfl hlists.nodup)⟩
      rw [(List.mergeSort_perm records _).mem_iff, heach.held records rfl]
      refine and_iff_left_of_imp fun hm => ?_
      rw [hlists.mem, hm.2]
      rfl

/-- An undisturbed entry is loaded. -/
theorem loadEntry_calm (h : Sound d) (hcalm : d.fates = [])
    (hfound : (d.entries.lookup name).isSome = true) :
    ∃ found d', loadEntry name d = .ok found d' ∧ d'.fates = [] := by
  unfold loadEntry
  split_ifs with htemporary hextension
  · have hcalm₁ : (d.turn (d.entries.erase name)).fates = [] := hcalm
    rw [Call.run_bind (orIo_ok.mpr (Disk.unlink_calm hcalm hfound)),
      Call.run_bind (orIo_ok.mpr (Disk.syncDirectory_calm hcalm₁))]
    exact ⟨none, _, rfl, hcalm⟩
  · exact ⟨none, d, rfl, hcalm⟩
  · rw [not_not] at hextension
    rw [Bool.not_eq_true] at htemporary
    obtain ⟨f, hlookup⟩ := Option.isSome_iff_exists.mp hfound
    obtain ⟨m, rfl, hm, rfl⟩ := h.entry htemporary hextension hlookup
    have hread : Disk.read (path m.mailboxId) d = .ok (Store.recordOf m) d :=
      Disk.read_calm hcalm hlookup
    have hdecode : (Store.decode (Store.recordOf m)).mapError Halt.failed = .ok m := by
      rw [Store.decode_recordOf hm.1]
      rfl
    rw [Call.run_bind (orIo_ok.mpr hread), hdecode, Call.run_bind (Call.run_ofExcept_ok m d),
      if_neg (by simp)]
    exact ⟨some m, d, rfl, hcalm⟩

theorem loadEach_calm (h : Sound d) (hcalm : d.fates = []) (hnodup : names.Nodup)
    (hfound : ∀ name ∈ names, (d.entries.lookup name).isSome = true) :
    ∃ loaded d', loadEach names d = .ok loaded d' := by
  induction names generalizing d with
  | nil => exact ⟨[], d, rfl⟩
  | cons name names ih =>
    obtain ⟨hnew, hnodup⟩ := List.nodup_cons.mp hnodup
    obtain ⟨found, d₁, hentry, hcalm₁⟩ := loadEntry_calm h hcalm (hfound name List.mem_cons_self)
    have hkeeps : ∀ other, (isStoreTemporary name = true → other ≠ name) →
        Disk.Keeps other d d₁ := by
      intro other hother
      have hkeeps := loadEntry_keeps hother d
      rwa [hentry] at hkeeps
    have hsound₁ := h.keeps fun other hfalse => hkeeps other (ne_of_temporary hfalse)
    have hfound₁ : ∀ other ∈ names, (d₁.entries.lookup other).isSome = true := by
      intro other hother
      have hne : other ≠ name := fun heq => hnew (heq ▸ hother)
      rw [(hkeeps other fun _ => hne).entry]
      exact hfound other (List.mem_cons_of_mem name hother)
    obtain ⟨rest, d₂, hrest⟩ := ih hsound₁ hcalm₁ hnodup hfound₁
    refine ⟨found.toList ++ rest, d₂, ?_⟩
    rw [loadEach, Call.run_bind (orIo_ok.mpr (Disk.inspect_calm hcalm)), Call.run_bind hentry, Call.run_bind hrest]
    rfl

/-- Undisturbed, the directory is loaded. -/
theorem load_calm (h : Sound d) (hcalm : d.fates = []) (hlists : Lists names d) :
    ∃ loaded, Call.verdict (load names d) = .ok loaded := by
  obtain ⟨records, d', hrecords⟩ := loadEach_calm h hcalm hlists.nodup fun name hname =>
    (hlists.mem name).mp hname
  rw [load, Call.run_bind (orIo_ok.mpr (Disk.inspect_calm hcalm)), Call.run_bind hrecords]
  exact ⟨_, rfl⟩

/-! ### The life of a directory -/

/-- What each record may be after a crash. -/
abbrev Ledger := Octets 32 → Set (Option Bytes)

/-- The records as they are seen, and nothing else. -/
def seen (d : Directory) : Ledger := fun id =>
  {(d.entries.lookup (path id)).map File.content}

/-- A safe change leaves one record it may be, any other change leaves one more. -/
def StoreCall.noted (process : UInt32) (c : StoreCall) (d : Directory) (known : Ledger) : Ledger :=
  fun id =>
    if id = c.mailboxId then {x | x = c.record ∨ ¬c.Settles process d ∧ x ∈ known id} else known id

/-- A directory the store comes to, beside what is known of its records: changes follow
each other, and a crash leaves what it may, which the next process loads. -/
inductive Reaches (d₀ : Directory) : Directory → Ledger → Prop
  | start : Reaches d₀ d₀ (seen d₀)
  | changed {d : Directory} {known : Ledger} {c : StoreCall} (process : UInt32) :
      Reaches d₀ d known → c.Valid →
      Reaches d₀ (Call.after (c.perform process d)) (c.noted process d known)
  | restarted {d d' : Directory} {known : Ledger} (names : List Bytes) :
      Reaches d₀ d known → Disk.Crash d d' → Reaches d₀ (Call.after (load names d')) (seen d')

/-- The state of a directory nothing has changed since it was safe. -/
structure Opened (d : Directory) : Prop where
  settled : d.past = []
  sound : Sound d

theorem Sound.crash (h : Sound d) (hcrash : Disk.Crash d d') : Opened d' := by
  refine ⟨hcrash.settled, fun name htemporary hextension => ?_⟩
  obtain ⟨x, hx, hshows⟩ := hcrash.shows (h name htemporary hextension)
  exact hshows.mono (by rintro _ rfl; exact hx)

theorem Sound.perform {c : StoreCall} (h : Sound d) (process : UInt32) (hc : c.Valid) :
    Sound (Call.after (c.perform process d)) := by
  intro name htemporary hextension
  by_cases hname : name = path c.mailboxId
  · subst hname
    refine (c.perform_shows process hc (h _ htemporary hextension)).mono ?_
    rintro x (rfl | ⟨-, hx⟩)
    · intro bytes hbytes
      cases c with
      | put m =>
        obtain rfl := Option.some.inj hbytes
        exact ⟨m, hc, rfl, rfl⟩
      | remove mailboxId => cases hbytes
    · exact hx
  · exact (c.perform_keeps process hc hname htemporary).shows (h name htemporary hextension)

theorem Opened.seen (h : Opened d) (id : Octets 32) :
    Disk.Shows (path id) (seen d id) d := by
  refine Disk.shows_settled h.settled ?_
  obtain ⟨x, -, hentry⟩ := (h.sound (path id) (isStoreTemporary_path id)
    (extension_path id)).entry
  rw [hentry]
  cases x <;> rfl

/-- Over the whole life of a directory, every record is always whole and one of those it is
known it may be. -/
theorem Reaches.shows {d₀ : Directory} {known : Ledger} (h : Reaches d₀ d known)
    (hstart : Opened d₀) : Sound d ∧ ∀ id, Disk.Shows (path id) (known id) d := by
  induction h with
  | start => exact ⟨hstart.sound, hstart.seen⟩
  | @changed d known c process _ hc ih =>
    obtain ⟨hsound, hshows⟩ := ih
    refine ⟨hsound.perform process hc, fun id => ?_⟩
    unfold StoreCall.noted
    split_ifs with hid
    · subst hid
      exact c.perform_shows process hc (hshows _)
    · have hname : path id ≠ path c.mailboxId := fun heq => hid (path_injective heq)
      exact (c.perform_keeps process hc hname (isStoreTemporary_path id)).shows (hshows id)
  | @restarted d d' known names _ hcrash ih =>
    have hopened := ih.1.crash hcrash
    refine ⟨hopened.sound.keeps fun name hfalse => load_keeps hfalse names d', fun id => ?_⟩
    exact (load_keeps (isStoreTemporary_path id) names d').shows (hopened.seen id)

theorem Restored.find? {loaded : List Mailbox} (h : Restored d loaded) (id : Octets 32)
    {x : Option Bytes} (hsound : Sound d) (hentry : d.entries.lookup (path id) = x.map .whole) :
    (loaded.find? (·.mailboxId == id)).map Store.recordOf = x := by
  cases hfind : loaded.find? (·.mailboxId == id) with
  | none =>
    cases x with
    | none => rfl
    | some bytes =>
      obtain ⟨m, hname, hm, -⟩ := hsound.entry (isStoreTemporary_path id) (extension_path id) hentry
      have hnone := List.find?_eq_none.mp hfind m ((h.held m).mpr hm)
      rw [path_injective hname] at hnone
      simp at hnone
  | some m =>
    have hsame : (m.mailboxId == id) = true := by simpa using List.find?_some hfind
    have hid : m.mailboxId = id := eq_of_beq hsame
    have hm := ((h.held m).mp (List.mem_of_find?_eq_some hfind)).2
    rw [hid, hentry] at hm
    cases x with
    | none => cases hm
    | some bytes => exact congrArg some (File.whole_injective (Option.some.inj hm)).symm

/-- Wherever the process dies, in whatever its calls and those before it came to: what the
crash leaves is never malformed, it loads unless a call fails again, and each mailbox comes
back as the last safe change left it or as a later change asked for. -/
theorem crash_consistent {d₀ : Directory} {known : Ledger} (hstart : Opened d₀)
    (h : Reaches d₀ d known) (hcrash : Disk.Crash d d') (hlists : Lists names d') :
    Call.verdict (load names d') ≠ .error (.failed .malformed) ∧
    (d'.fates = [] → ∃ loaded, Call.verdict (load names d') = .ok loaded) ∧
    ∀ loaded, Call.verdict (load names d') = .ok loaded →
      Restored d' loaded ∧
      ∀ id, (loaded.find? (·.mailboxId == id)).map Store.recordOf ∈ known id := by
  obtain ⟨hsound, hshows⟩ := h.shows hstart
  have hopened := hsound.crash hcrash
  obtain ⟨hmalformed, hloaded⟩ := load_outcome hopened.sound names
  refine ⟨hmalformed, fun hcalm => load_calm hopened.sound hcalm hlists, fun loaded hok => ?_⟩
  have hrestored := hloaded loaded hok hlists
  refine ⟨hrestored, fun id => ?_⟩
  obtain ⟨x, hx, hleft⟩ := hcrash.shows (hshows id)
  obtain ⟨_, rfl, hentry⟩ := hleft.entry
  rw [hrestored.find? id hopened.sound hentry]
  exact hx

/-! ### The store of whole writes -/

/-- The directory shows the records of a store. -/
def Backs (d : Directory) (s : MailboxStore) : Prop :=
  ∀ id, d.entries.lookup (path id) = (s.records.lookup id).map .whole

namespace StoreCall

def onStore : StoreCall → Call StoreError MailboxStore Unit
  | .put m => MailboxStore.put m
  | .remove mailboxId => MailboxStore.remove mailboxId

/-- A change that fails and is visible all the same: the sync of the directory failed. -/
def Exposed (process : UInt32) (c : StoreCall) (d : Directory) : Prop :=
  (Call.verdict (c.perform process d)).isOk = false ∧
    (Call.after (c.perform process d)).entries.lookup (path c.mailboxId) ≠
      d.entries.lookup (path c.mailboxId)

instance (process : UInt32) (c : StoreCall) (d : Directory) : Decidable (c.Exposed process d) :=
  inferInstanceAs (Decidable (_ ∧ _))

/-- The store after a change it took. -/
def applied (c : StoreCall) (s : MailboxStore) : Table (Octets 32) Bytes :=
  match c with
  | .put m => s.records.insert m.mailboxId (Store.recordOf m)
  | .remove mailboxId => s.records.erase mailboxId

omit [Primitives] in
theorem applied_lookup (c : StoreCall) (s : MailboxStore) (id : Octets 32) :
    (c.applied s).lookup id = if id = c.mailboxId then c.record else s.records.lookup id := by
  cases c with
  | put m => exact Table.lookup_insert_if s.records m.mailboxId id _
  | remove mailboxId => exact Table.lookup_erase_if s.records mailboxId id

theorem onStore_taken {c : StoreCall} (hc : c.Valid) (s : MailboxStore) (faults : List Bool) :
    c.onStore { s with faults := false :: faults } =
      .ok () { records := c.applied s, faults := faults } := by
  cases c with
  | put m =>
    have hencode := Store.encode_recordOf hc
    simp [onStore, MailboxStore.put, hencode, applied]
  | remove mailboxId => rfl

omit [Primitives] in
theorem onStore_refused (c : StoreCall) (s : MailboxStore) (faults : List Bool) :
    c.onStore { s with faults := true :: faults } = .error .io { s with faults := faults } := by
  cases c <;> rfl

end StoreCall

variable {s : MailboxStore} {c : StoreCall}

theorem Backs.unchanged (h : Backs d s) (process : UInt32) (hc : c.Valid)
    (hentry : (Call.after (c.perform process d)).entries.lookup (path c.mailboxId) =
      d.entries.lookup (path c.mailboxId)) : Backs (Call.after (c.perform process d)) s := by
  intro id
  by_cases hid : id = c.mailboxId
  · rw [hid, hentry]
    exact h c.mailboxId
  · have hname : path id ≠ path c.mailboxId := fun heq => hid (path_injective heq)
    rw [(c.perform_keeps process hc hname (isStoreTemporary_path id)).entry]
    exact h id

theorem Backs.applied (h : Backs d s) (process : UInt32) (hc : c.Valid) {faults : List Bool}
    (hentry : (Call.after (c.perform process d)).entries.lookup (path c.mailboxId) =
      c.record.map .whole) :
    Backs (Call.after (c.perform process d)) { records := c.applied s, faults := faults } := by
  intro id
  rw [c.applied_lookup]
  split_ifs with hid
  · rw [hid, hentry]
  · have hname : path id ≠ path c.mailboxId := fun heq => hid (path_injective heq)
    rw [(c.perform_keeps process hc hname (isStoreTemporary_path id)).entry]
    exact h id

/-- A change that answers well is made; one that fails is not made, or exposed. -/
theorem StoreCall.perform_entry (process : UInt32) (hc : c.Valid) (d : Directory) :
    ((Call.verdict (c.perform process d)).isOk = true ∧
      (Call.after (c.perform process d)).entries.lookup (path c.mailboxId) =
        c.record.map .whole) ∨
    ((Call.verdict (c.perform process d)).isOk = false ∧
      ((Call.after (c.perform process d)).entries.lookup (path c.mailboxId) =
          d.entries.lookup (path c.mailboxId) ∨
        (Call.after (c.perform process d)).entries.lookup (path c.mailboxId) =
          c.record.map .whole)) := by
  cases c with
  | put m =>
    have houtcome : Replaced (path m.mailboxId) (Store.recordOf m) d
        ((StoreCall.put m).perform process d) := put_outcome process hc d
    generalize (StoreCall.put m).perform process d = r at houtcome
    cases houtcome with
    | stored _ hentry => exact .inl ⟨rfl, hentry⟩
    | kept hkeeps => exact .inr ⟨rfl, .inl hkeeps.entry⟩
    | unsynced hentry => exact .inr ⟨rfl, .inr hentry⟩
  | remove mailboxId =>
    have houtcome : Removed (path mailboxId) d
        ((StoreCall.remove mailboxId).perform process d) := remove_outcome mailboxId d
    generalize (StoreCall.remove mailboxId).perform process d = r at houtcome
    cases houtcome with
    | removed _ _ hentry => exact .inl ⟨rfl, hentry⟩
    | missing hnone hkeeps => exact .inl ⟨rfl, hkeeps.entry.trans hnone⟩
    | kept hkeeps => exact .inr ⟨rfl, .inl hkeeps.entry⟩
    | unsynced hentry => exact .inr ⟨rfl, .inr hentry⟩

/-- Each change of the directory is one of the store, which refuses it or takes it. -/
theorem Backs.step (h : Backs d s) (process : UInt32) (hc : c.Valid)
    (hclean : ¬c.Exposed process d) : ∃ fault, ∀ faults,
      (Call.verdict (c.onStore { s with faults := fault :: faults })).isOk =
        (Call.verdict (c.perform process d)).isOk ∧
      Backs (Call.after (c.perform process d))
        (Call.after (c.onStore { s with faults := fault :: faults })) ∧
      (Call.after (c.onStore { s with faults := fault :: faults })).faults = faults := by
  rcases c.perform_entry process hc d with ⟨hok, hentry⟩ | ⟨hfailed, hentry⟩
  · refine ⟨false, fun faults => ?_⟩
    rw [StoreCall.onStore_taken hc, hok]
    exact ⟨rfl, h.applied process hc hentry, rfl⟩
  · refine ⟨true, fun faults => ?_⟩
    rw [StoreCall.onStore_refused, hfailed]
    have hsame : (Call.after (c.perform process d)).entries.lookup (path c.mailboxId) =
        d.entries.lookup (path c.mailboxId) := by
      by_contra hne
      exact hclean ⟨hfailed, hne⟩
    exact ⟨rfl, h.unchanged process hc hsame, rfl⟩

/-- Whether each of some calls answers well. -/
def answers {ε σ : Type} (step : StoreCall → Call ε σ Unit) (s : σ) : List StoreCall → List Bool
  | [] => []
  | c :: calls => (Call.verdict (step c s)).isOk :: answers step (Call.after (step c s)) calls

/-- The state some calls leave. -/
def afterEach {ε σ : Type} (step : StoreCall → Call ε σ Unit) (s : σ) (calls : List StoreCall) :
    σ :=
  calls.foldl (fun s c => Call.after (step c s)) s

/-- No failed change of a run is visible. -/
def Clean (process : UInt32) (d : Directory) : List StoreCall → Prop
  | [] => True
  | c :: calls => ¬c.Exposed process d ∧ Clean process (Call.after (c.perform process d)) calls

theorem Sound.performEach (h : Sound d) (process : UInt32) {calls : List StoreCall}
    (hvalid : ∀ c ∈ calls, c.Valid) : Sound (afterEach (StoreCall.perform process) d calls) := by
  induction calls generalizing d with
  | nil => exact h
  | cons c calls ih =>
    exact ih (h.perform process (hvalid c List.mem_cons_self))
      fun c' hc' => hvalid c' (List.mem_cons_of_mem c hc')

theorem Backs.run (h : Backs d s) (process : UInt32) {calls : List StoreCall}
    (hvalid : ∀ c ∈ calls, c.Valid) (hclean : Clean process d calls) : ∃ faults,
      answers StoreCall.onStore { s with faults := faults } calls =
        answers (StoreCall.perform process) d calls ∧
      Backs (afterEach (StoreCall.perform process) d calls)
        (afterEach StoreCall.onStore { s with faults := faults } calls) := by
  induction calls generalizing d s with
  | nil => exact ⟨s.faults, rfl, h⟩
  | cons c calls ih =>
    obtain ⟨hfirst, hrest⟩ := hclean
    obtain ⟨fault, hstep⟩ := h.step process (hvalid c List.mem_cons_self) hfirst
    obtain ⟨-, hbacks, -⟩ := hstep []
    obtain ⟨faults, hanswers, hfinal⟩ := ih hbacks
      (fun c' hc' => hvalid c' (List.mem_cons_of_mem c hc')) hrest
    obtain ⟨hok, -, hleft⟩ := hstep faults
    have hsame : { Call.after (c.onStore { s with faults := [fault] }) with faults := faults } =
        Call.after (c.onStore { s with faults := fault :: faults }) := by
      cases fault with
      | true => rw [StoreCall.onStore_refused, StoreCall.onStore_refused]; rfl
      | false =>
        have hc := hvalid c List.mem_cons_self
        rw [StoreCall.onStore_taken hc, StoreCall.onStore_taken hc]
        rfl
    rw [hsame] at hanswers hfinal
    exact ⟨fault :: faults, congrArg₂ List.cons hok hanswers, hfinal⟩

/-- What a directory loads is what the store behind it loads. -/
theorem Restored.load {loaded : List Mailbox} (h : Restored d loaded) (hsound : Sound d)
    (hbacks : Backs d s) : s.load = .ok loaded := by
  have hrecord : ∀ m ∈ loaded, s.records.lookup m.mailboxId = some (Store.recordOf m) := by
    intro m hm
    have hentry := ((h.held m).mp hm).2
    rw [hbacks] at hentry
    obtain ⟨bytes, hbytes, hwhole⟩ := Option.map_eq_some_iff.mp hentry
    rw [hbytes, File.whole_injective hwhole]
  have hkeys : loaded.map Mailbox.mailboxId = s.records.keys.sort idLe := by
    have hunique : ∀ a b, a ∈ loaded.map Mailbox.mailboxId → b ∈ s.records.keys.sort idLe →
        idLe a b → idLe b a → a = b :=
      fun a b _ _ hab hba => Std.Antisymm.antisymm a b hab hba
    apply List.Perm.eq_of_pairwise hunique
    · exact h.sorted.imp And.left
    · exact s.records.keys.pairwise_sort idLe
    · refine (List.perm_ext_iff_of_nodup (h.sorted.imp And.right)
        (s.records.keys.sort_nodup idLe)).mpr fun id => ?_
      rw [Finset.mem_sort, Finmap.mem_keys, List.mem_map]
      constructor
      · rintro ⟨m, hm, rfl⟩
        exact Finmap.mem_of_lookup_eq_some (hrecord m hm)
      · intro hid
        obtain ⟨bytes, hbytes⟩ := Finmap.mem_iff.mp hid
        have hentry := hbacks id
        rw [hbytes] at hentry
        obtain ⟨m, hname, hm, -⟩ := hsound.entry (isStoreTemporary_path id)
          (extension_path id) hentry
        exact ⟨m, (h.held m).mpr hm, (path_injective hname).symm⟩
  obtain ⟨read, hread, hrecords⟩ : ∃ read : Octets 32 → Except StoreError Mailbox,
      s.load = (s.records.keys.sort idLe).mapM read ∧
        ∀ id record, s.records.lookup id = some record → read id = Store.decode record :=
    ⟨_, rfl, fun id record hrecord => by simp only [hrecord]⟩
  rw [hread, ← hkeys, mapM_eq_ok, List.forall₂_map_left_iff, List.forall₂_same]
  intro m hm
  rw [hrecords m.mailboxId _ (hrecord m hm)]
  exact Store.decode_recordOf ((h.held m).mp hm).1

/-- Unless a failed change is visible, the directory is the store of whole writes the relay
is built on: the same changes answer well, the records seen are its records, and a listing
of the directory loads as the store does. -/
theorem file_store_refines (process : UInt32) (h : Backs d s) (hsound : Sound d)
    {calls : List StoreCall} (hvalid : ∀ c ∈ calls, c.Valid) (hclean : Clean process d calls) :
    ∃ faults, answers StoreCall.onStore { s with faults := faults } calls =
        answers (StoreCall.perform process) d calls ∧
      Backs (afterEach (StoreCall.perform process) d calls)
        (afterEach StoreCall.onStore { s with faults := faults } calls) ∧
      ∀ names loaded, Lists names (afterEach (StoreCall.perform process) d calls) →
        Call.verdict (load names (afterEach (StoreCall.perform process) d calls)) = .ok loaded →
        (afterEach StoreCall.onStore { s with faults := faults } calls).load = .ok loaded := by
  obtain ⟨faults, hanswers, hbacks⟩ := h.run process hvalid hclean
  have hsound' := hsound.performEach process hvalid
  refine ⟨faults, hanswers, hbacks, fun names loaded hlists hok => ?_⟩
  exact ((load_outcome hsound' names).2 loaded hok hlists).load hsound' hbacks

end FileMailboxStore
end CbclPairing

/-! ### A write whose last sync fails -/

namespace CbclPairing
open Codec Calls Tables Disks

attribute [local instance] Primitives.transparent

namespace FileMailboxStore

/-- A directory nothing was ever stored in. -/
def blank (fates : List Fate) : Directory := ⟨∅, [], fates⟩

theorem opened_blank (fates : List Fate) : Opened (blank fates) := by
  refine ⟨rfl, fun name _ _ view hview => ?_⟩
  obtain rfl := List.mem_singleton.mp hview
  exact ⟨none, fun _ hbytes => (by cases hbytes), rfl⟩

/-- The directory sync of the first write fails, and so does the removal of the temporary. -/
def unlucky : Directory := blank [.done, .done, .done, .done, .done, .fails 0, .fails 0]

def afterWrite : Directory :=
  Call.after ((StoreCall.put Mailbox.sample).perform 1 unlucky)

theorem valid_sample : (StoreCall.put Mailbox.sample).Valid :=
  (Mailbox.Allocated.fresh Mailbox.allocate_sample).1.toRecorded

theorem afterWrite_facts : (Call.verdict ((StoreCall.put Mailbox.sample).perform 1 unlucky)).isOk =
      false ∧ (afterWrite.entries.lookup (path Mailbox.sample.mailboxId)).isSome = true ∧
    afterWrite.views.any (fun view => view.keys.card == 0) = true := by
  decide +kernel

theorem crash_blank : Disk.Crash afterWrite (blank []) := by
  refine ⟨rfl, fun name => ?_⟩
  obtain ⟨view, hview, hempty⟩ := List.any_eq_true.mp afterWrite_facts.2.2
  refine ⟨view, hview, ?_⟩
  have hnone : view.lookup name = none := by
    rw [Finmap.lookup_eq_none, ← Finmap.mem_keys, Finset.card_eq_zero.mp (eq_of_beq hempty)]
    exact Finset.notMem_empty name
  rw [hnone]
  exact .absent

theorem lists_blank (fates : List Fate) : Lists [] (blank fates) :=
  ⟨List.nodup_nil, fun name => ⟨fun h => (by cases h), fun h => (by cases h)⟩⟩

/-- The record was visible, and the crash took it back. -/
theorem crash_consistent_sample :
    (afterWrite.entries.lookup (path Mailbox.sample.mailboxId)).isSome = true ∧
    ∃ loaded, Call.verdict (load [] (blank [])) = .ok loaded ∧ Restored (blank []) loaded := by
  have hstart : Reaches unlucky unlucky _ := .start
  have hreached := Reaches.changed 1 hstart valid_sample
  obtain ⟨-, hcalm, hloaded⟩ :=
    crash_consistent (opened_blank _) hreached crash_blank (lists_blank [])
  obtain ⟨loaded, hok⟩ := hcalm rfl
  exact ⟨afterWrite_facts.2.1, loaded, hok, (hloaded loaded hok).1⟩

theorem backs_blank (fates : List Fate) (faults : List Bool) :
    Backs (blank fates) ⟨∅, faults⟩ := fun _ => rfl

def sampleChanges : List StoreCall := [.put Mailbox.sample, .remove (fill 32 [1])]

theorem valid_changes : ∀ c ∈ sampleChanges, c.Valid := by
  intro c hc
  rcases List.mem_cons.mp hc with rfl | hc
  · exact valid_sample
  · obtain rfl := List.mem_singleton.mp hc
    trivial

/-- The first write fails before anything is visible. -/
theorem clean_changes : Clean 1 (blank [.done, .fails 0]) sampleChanges :=
  ⟨by decide +kernel, by decide +kernel, trivial⟩

theorem file_store_refines_sample : ∃ faults,
    answers StoreCall.onStore ⟨∅, faults⟩ sampleChanges =
      answers (StoreCall.perform 1) (blank [.done, .fails 0]) sampleChanges := by
  have hbacks := backs_blank [.done, .fails 0] []
  obtain ⟨faults, hanswers, -⟩ :=
    file_store_refines 1 hbacks (opened_blank _).sound valid_changes clean_changes
  exact ⟨faults, hanswers⟩

end FileMailboxStore
end CbclPairing
