import CbclPairing.Disks
import CbclPairing.Relay.Restart

/-! The directory-backed mailbox store: records that take each other's place as a whole,
the crashes they survive, and the store they stand for. -/
namespace CbclPairing
open Codec Calls Tables Disks

/-! ### Names -/

/-- Split at the first separator. -/
def splitOnce (separator : UInt8) : Bytes → Option (Bytes × Bytes)
  | [] => none
  | b :: rest =>
    if b = separator then some ([], rest)
    else (splitOnce separator rest).map fun parts => (b :: parts.1, parts.2)

theorem splitOnce_append {separator : UInt8} {before : Bytes} (h : separator ∉ before)
    (after : Bytes) :
    splitOnce separator (before ++ separator :: after) = some (before, after) := by
  induction before with
  | nil => simp [splitOnce]
  | cons b before ih =>
    rw [List.mem_cons, not_or] at h
    rw [List.cons_append, splitOnce, if_neg (Ne.symm h.1), ih h.2]
    rfl

namespace FileMailboxStore

/-- A failure the store reports, or the death of the process. -/
inductive Halt where
  | failed (e : StoreError)
  | dead
  deriving DecidableEq

abbrev Directory := Disk Bytes UInt8

def hexDigit (n : ℕ) : UInt8 := UInt8.ofNat (if n < 10 then 48 + n else 87 + n)

def lowerHex (bytes : Bytes) : Bytes :=
  bytes.flatMap fun b => [hexDigit (b.toNat / 16), hexDigit (b.toNat % 16)]

def isLowerHexDigit (b : UInt8) : Bool := (48 ≤ b && b ≤ 57) || (97 ≤ b && b ≤ 102)

def isDecimalDigit (b : UInt8) : Bool := 48 ≤ b && b ≤ 57

def decimalText (n : ℕ) : Bytes := (Nat.toDigits 10 n).map fun c => UInt8.ofNat c.toNat

def path (mailboxId : Octets 32) : Bytes := lowerHex mailboxId.val ++ ascii ".cbor"

def temporaryPath (mailboxId : Octets 32) (process : UInt32) : Bytes :=
  46 :: (lowerHex mailboxId.val ++ 46 :: (decimalText process.toNat ++ ascii ".tmp"))

def stripSuffix (suffix bytes : Bytes) : Option Bytes :=
  if suffix.isSuffixOf bytes then some (bytes.take (bytes.length - suffix.length)) else none

def stripLeading (lead : UInt8) : Bytes → Option Bytes
  | [] => none
  | b :: rest => if b = lead then some rest else none

def isStoreTemporary (name : Bytes) : Bool :=
  match ((stripLeading 46 name).bind (stripSuffix (ascii ".tmp"))).bind (splitOnce 46) with
  | some (mailbox, process) => mailbox.length == 64 && mailbox.all isLowerHexDigit &&
      !process.isEmpty && process.all isDecimalDigit
  | none => false

/-- What follows the last dot, unless the name only begins with it. -/
def extension (name : Bytes) : Option Bytes :=
  if name = [46, 46] then none
  else
    match splitOnce 46 name.reverse with
    | some (after, before) => if before = [] then none else some after.reverse
    | none => none

/-! ### Operations -/

def Halt.ofStop : Stop → Halt
  | .dead => .dead
  | _ => .failed .io

def orIo {α : Type} (call : Call Stop Directory α) : Call Halt Directory α := fun d =>
  match call d with
  | .ok a d' => .ok a d'
  | .error e d' => .error (.ofStop e) d'

/-- Write the record beside its place, and move it there once it is whole. -/
def replace (temporary target bytes : Bytes) : Call Halt Directory Unit := do
  orIo (Disk.create temporary)
  -- the permissions of the new file
  orIo Disk.inspect
  orIo (Disk.write temporary bytes)
  orIo (Disk.sync temporary)
  orIo (Disk.rename temporary target)
  orIo Disk.syncDirectory

/-- What a failed write leaves is removed, if that can be done. -/
def discard (temporary : Bytes) (e : StoreError) : Call Halt Directory Unit := fun d =>
  match Disk.unlink temporary d with
  | .error .dead d' => .error .dead d'
  | r => .error (.failed e) (Call.after r)

def put (process : UInt32) (m : Mailbox) : Call Halt Directory Unit := fun d =>
  let temporary := temporaryPath m.mailboxId process
  match Store.encode m.snapshot with
  | .error e => .error (.failed e) d
  | .ok bytes =>
    match replace temporary (path m.mailboxId) bytes d with
    | .error (.failed e) d' => discard temporary e d'
    | r => r

def remove (mailboxId : Octets 32) : Call Halt Directory Unit := fun d =>
  match Disk.unlink (path mailboxId) d with
  | .ok () d' => orIo Disk.syncDirectory d'
  | .error .missing d' => .ok () d'
  | .error e d' => .error (.ofStop e) d'

section Load

variable [Primitives]

/-- One entry of the directory: leftovers are removed, foreign files passed over. -/
def loadEntry (name : Bytes) : Call Halt Directory (Option Mailbox) :=
  if isStoreTemporary name then do
    orIo (Disk.unlink name)
    orIo Disk.syncDirectory
    pure none
  else if extension name ≠ some (ascii "cbor") then pure none
  else do
    let bytes ← orIo (Disk.read name)
    let mailbox ← Call.ofExcept ((Store.decode bytes).mapError .failed)
    if name ≠ path mailbox.mailboxId then throw (.failed .malformed) else pure (some mailbox)

def loadEach : List Bytes → Call Halt Directory (List Mailbox)
  | [] => pure []
  | name :: names => do
    orIo Disk.inspect
    let loaded ← loadEntry name
    let rest ← loadEach names
    pure (loaded.toList ++ rest)

/-- Load every record, the directory listing these names in any order. -/
def load (names : List Bytes) : Call Halt Directory (List Mailbox) := do
  orIo Disk.inspect
  let records ← loadEach names
  pure (records.mergeSort fun m m' => decide (idLe m.mailboxId m'.mailboxId))

end Load

/-! ### Facts about names -/

theorem hexDigit_lower {n : ℕ} (h : n < 16) : isLowerHexDigit (hexDigit n) = true := by
  have hall : ∀ n < 16, isLowerHexDigit (hexDigit n) = true := by decide
  exact hall n h

theorem hexDigit_injective {n k : ℕ} (hn : n < 16) (hk : k < 16) (h : hexDigit n = hexDigit k) :
    n = k := by
  have hall : ∀ n < 16, ∀ k < 16, hexDigit n = hexDigit k → n = k := by decide
  exact hall n hn k hk h

theorem lowerHex_cons (b : UInt8) (bytes : Bytes) : lowerHex (b :: bytes) =
    hexDigit (b.toNat / 16) :: hexDigit (b.toNat % 16) :: lowerHex bytes := rfl

@[simp] theorem lowerHex_length (bytes : Bytes) : (lowerHex bytes).length = 2 * bytes.length := by
  induction bytes with
  | nil => rfl
  | cons b bytes ih =>
    rw [lowerHex_cons, List.length_cons, List.length_cons, ih, List.length_cons]
    omega

theorem lowerHex_digits (bytes : Bytes) : ∀ b ∈ lowerHex bytes, isLowerHexDigit b = true := by
  induction bytes with
  | nil => simp [lowerHex]
  | cons b bytes ih =>
    have hb := b.toNat_lt
    intro c hc
    rw [lowerHex_cons, List.mem_cons, List.mem_cons] at hc
    rcases hc with rfl | rfl | hc
    · apply hexDigit_lower
      omega
    · apply hexDigit_lower
      omega
    · exact ih c hc

theorem lowerHex_injective : Function.Injective lowerHex := by
  intro xs
  induction xs with
  | nil =>
    intro ys h
    have hlength := congrArg List.length h
    rw [lowerHex_length, lowerHex_length, List.length_nil] at hlength
    exact (List.length_eq_zero_iff.mp (by omega)).symm
  | cons x xs ih =>
    intro ys h
    cases ys with
    | nil => cases h
    | cons y ys =>
      rw [lowerHex_cons, lowerHex_cons, List.cons.injEq, List.cons.injEq] at h
      obtain ⟨hhigh, hlow, hrest⟩ := h
      have hx := x.toNat_lt
      have hy := y.toNat_lt
      have hhigh := hexDigit_injective (by omega) (by omega) hhigh
      have hlow := hexDigit_injective (by omega) (by omega) hlow
      have hxy : x = y := UInt8.toNat_inj.mp (by omega)
      rw [hxy, ih hrest]

theorem path_injective : Function.Injective path := by
  intro a b h
  exact Subtype.ext (lowerHex_injective (List.append_cancel_right h))

theorem dot_not_mem_lowerHex (bytes : Bytes) : (46 : UInt8) ∉ lowerHex bytes := by
  intro h
  have := lowerHex_digits bytes 46 h
  revert this
  decide

theorem decimalText_digits (n : ℕ) : ∀ b ∈ decimalText n, isDecimalDigit b = true := by
  intro b hb
  obtain ⟨c, hc, rfl⟩ := List.mem_map.mp hb
  have hdigit := Nat.isDigit_of_mem_toDigits (by decide) (by decide) hc
  simp only [Char.isDigit, Bool.and_eq_true, decide_eq_true_eq] at hdigit
  have hlow : 48 ≤ c.toNat := hdigit.1
  have hhigh : c.toNat ≤ 57 := hdigit.2
  simp only [isDecimalDigit, Bool.and_eq_true, decide_eq_true_eq, UInt8.le_iff_toNat_le,
    UInt8.toNat_ofNat', UInt8.reduceToNat]
  omega

theorem decimalText_ne_nil (n : ℕ) : decimalText n ≠ [] := by
  simp [decimalText, Nat.toDigits_ne_nil]

theorem isStoreTemporary_temporaryPath (mailboxId : Octets 32) (process : UInt32) :
    isStoreTemporary (temporaryPath mailboxId process) = true := by
  have hstrip : stripSuffix (ascii ".tmp") (lowerHex mailboxId.val ++
      46 :: (decimalText process.toNat ++ ascii ".tmp")) =
      some (lowerHex mailboxId.val ++ 46 :: decimalText process.toNat) := by
    have hshape : lowerHex mailboxId.val ++ 46 :: (decimalText process.toNat ++ ascii ".tmp") =
        (lowerHex mailboxId.val ++ 46 :: decimalText process.toNat) ++ ascii ".tmp" := by simp
    rw [hshape, stripSuffix, if_pos (List.isSuffixOf_iff_suffix.mpr (List.suffix_append _ _)),
      List.length_append, Nat.add_sub_cancel, List.take_left']
    rfl
  unfold temporaryPath isStoreTemporary
  rw [stripLeading, if_pos rfl, Option.bind_some, hstrip, Option.bind_some, splitOnce_append (dot_not_mem_lowerHex _)]
  have hlength : (lowerHex mailboxId.val).length = 64 := by simp
  simp only [hlength, beq_self_eq_true, Bool.true_and, Bool.and_eq_true, List.all_eq_true,
    Bool.not_eq_true', List.isEmpty_eq_false_iff]
  exact ⟨⟨lowerHex_digits _, decimalText_ne_nil _⟩, decimalText_digits _⟩

theorem lowerHex_id (mailboxId : Octets 32) :
    ∃ b rest, lowerHex mailboxId.val = b :: rest ∧ b ≠ 46 := by
  cases hhex : lowerHex mailboxId.val with
  | nil =>
    have hlength := congrArg List.length hhex
    simp at hlength
  | cons b rest =>
    refine ⟨b, rest, rfl, ?_⟩
    rintro rfl
    exact dot_not_mem_lowerHex mailboxId.val (hhex ▸ List.mem_cons_self)

theorem isStoreTemporary_path (mailboxId : Octets 32) :
    isStoreTemporary (path mailboxId) = false := by
  obtain ⟨b, rest, hhex, hb⟩ := lowerHex_id mailboxId
  rw [path, hhex, List.cons_append]
  unfold isStoreTemporary
  rw [stripLeading, if_neg hb]
  rfl

theorem extension_path (mailboxId : Octets 32) :
    extension (path mailboxId) = some (ascii "cbor") := by
  obtain ⟨b, rest, hhex, hb⟩ := lowerHex_id mailboxId
  have hname : path mailboxId ≠ [46, 46] := by
    intro h
    rw [path, hhex, List.cons_append] at h
    exact hb (List.cons.inj h).1
  have hreverse : (path mailboxId).reverse =
      (ascii "cbor").reverse ++ 46 :: (lowerHex mailboxId.val).reverse := by
    simp [path, ascii]
  have hstem : (lowerHex mailboxId.val).reverse ≠ [] := by simp [hhex]
  rw [extension, if_neg hname, hreverse, splitOnce_append (by decide)]
  dsimp only
  rw [if_neg hstem, List.reverse_reverse]

theorem temporaryPath_ne_path (mailboxId other : Octets 32) (process : UInt32) :
    temporaryPath mailboxId process ≠ path other := by
  intro h
  have htemporary := isStoreTemporary_temporaryPath mailboxId process
  rw [h, isStoreTemporary_path] at htemporary
  cases htemporary

/-! ### What the operations come to -/

variable {d d' : Directory} {target bytes : Bytes} {m : Mailbox}

theorem orIo_ok {α : Type} {call : Call Stop Directory α} {a : α} :
    orIo call d = .ok a d' ↔ call d = .ok a d' := by
  unfold orIo
  cases call d <;> simp

theorem orIo_error {α : Type} {call : Call Stop Directory α} {e : Halt} :
    orIo call d = .error e d' ↔ ∃ stop, call d = .error stop d' ∧ Halt.ofStop stop = e := by
  unfold orIo
  cases call d <;> simp [and_comm]

theorem orIo_after {α : Type} (call : Call Stop Directory α) (d : Directory) :
    Call.after (orIo call d) = Call.after (call d) := by
  unfold orIo
  cases call d <;> rfl

theorem orIo_keeps {α : Type} {call : Call Stop Directory α} {name : Bytes}
    (h : ∀ d, Disk.Keeps name d (Call.after (call d))) (d : Directory) :
    Disk.Keeps name d (Call.after (orIo call d)) := by
  rw [orIo_after]
  exact h d

/-- What the replacement of a record can come to: it is stored and safe, it failed with
the old record in place, or it failed when the new one was already visible. -/
inductive Replaced (target bytes : Bytes) (d : Directory) :
    EStateM.Result Halt Directory Unit → Prop
  | stored {d' : Directory} : d'.past = [] → d'.entries.lookup target = some (.whole bytes) →
      Replaced target bytes d (.ok () d')
  | kept {e : Halt} {d' : Directory} : Disk.Keeps target d d' →
      Replaced target bytes d (.error e d')
  | unsynced {e : Halt} {d' : Directory} : d'.entries.lookup target = some (.whole bytes) →
      (∀ view' ∈ d'.views, view'.lookup target = some (.whole bytes) ∨
        ∃ view ∈ d.views, view'.lookup target = view.lookup target) →
      Replaced target bytes d (.error e d')

theorem Replaced.of_keeps {r : EStateM.Result Halt Directory Unit}
    (hkeeps : Disk.Keeps target d d') (h : Replaced target bytes d' r) :
    Replaced target bytes d r := by
  cases h with
  | stored hpast hentry => exact .stored hpast hentry
  | kept hkept => exact .kept (hkeeps.trans hkept)
  | unsynced hentry hviews =>
    refine .unsynced hentry fun view'' hview'' => ?_
    rcases hviews view'' hview'' with hnew | ⟨view', hview', hsame'⟩
    · exact .inl hnew
    · obtain ⟨view, hview, hsame⟩ := hkeeps.views view' hview'
      exact .inr ⟨view, hview, hsame'.trans hsame⟩

/-- A call that leaves the record alone comes before the rest. -/
theorem Replaced.bind {call : Call Stop Directory Unit} {rest : Call Halt Directory Unit}
    (hkeeps : Disk.Keeps target d (Call.after (call d)))
    (hrest : ∀ d', call d = .ok () d' → Replaced target bytes d' (rest d')) :
    Replaced target bytes d ((do orIo call; rest) d) := by
  cases hcall : call d with
  | ok _ d' =>
    rw [Call.run_bind (orIo_ok.mpr hcall)]
    rw [hcall] at hkeeps
    exact (hrest d' hcall).of_keeps hkeeps
  | error stop d' =>
    rw [Call.run_bind_error (orIo_error.mpr ⟨stop, hcall, rfl⟩)]
    rw [hcall] at hkeeps
    exact .kept hkeeps

theorem replace_outcome {temporary : Bytes} (hne : temporary ≠ target) (bytes : Bytes)
    (d : Directory) : Replaced target bytes d (replace temporary target bytes d) := by
  apply Replaced.bind (Disk.create_keeps hne.symm d)
  intro d₁ hcreate
  have hempty := Disk.create_ok hcreate
  apply Replaced.bind (Disk.inspect_keeps d₁)
  intro d₂ hinspect
  have hsame : Disk.Keeps temporary d₁ (Call.after (Disk.inspect d₁)) := Disk.inspect_keeps d₁
  rw [hinspect] at hsame
  apply Replaced.bind (Disk.write_keeps hne.symm bytes d₂)
  intro d₃ hwrite
  obtain ⟨f, hfound, hwritten⟩ := Disk.write_ok hwrite
  obtain rfl := Option.some.inj (hfound.symm.trans (hsame.entry.trans hempty))
  apply Replaced.bind (Disk.sync_keeps hne.symm d₃)
  intro d₄ hsync
  obtain ⟨f', hfound', hsynced⟩ := Disk.sync_ok hsync
  obtain rfl := Option.some.inj (hfound'.symm.trans hwritten)
  -- from here on the record itself changes
  cases hrename : Disk.rename temporary target d₄ with
  | error stop d₅ =>
    rw [Call.run_bind_error (orIo_error.mpr ⟨stop, hrename, rfl⟩)]
    exact .kept (Disk.rename_error hrename)
  | ok _ d₅ =>
    rw [Call.run_bind (orIo_ok.mpr hrename)]
    obtain ⟨f'', hmoved, hentry, hviews⟩ := Disk.rename_ok hrename
    obtain rfl := Option.some.inj (hmoved.symm.trans hsynced)
    have hlast : Disk.Keeps target d₅ (Call.after (Disk.syncDirectory d₅)) :=
      Disk.syncDirectory_keeps d₅
    cases hdirectory : Disk.syncDirectory d₅ with
    | ok _ d₆ =>
      rw [orIo_ok.mpr hdirectory]
      obtain ⟨hentries, hpast⟩ := Disk.syncDirectory_ok hdirectory
      exact .stored hpast (by rw [hentries]; exact hentry)
    | error stop d₆ =>
      rw [orIo_error.mpr ⟨stop, hdirectory, rfl⟩]
      rw [hdirectory] at hlast
      refine .unsynced (hlast.entry.trans hentry) fun view'' hview'' => ?_
      obtain ⟨view', hview', hsame'⟩ := hlast.views view'' hview''
      rw [hsame']
      exact (hviews view' hview').imp_right fun hview => ⟨view', hview, rfl⟩

/-- Other entries are not touched. -/
theorem replace_keeps {name temporary : Bytes} (htemporary : name ≠ temporary)
    (htarget : name ≠ target) (d : Directory) :
    Disk.Keeps name d (Call.after (replace temporary target bytes d)) := by
  apply Disk.keeps_bind (orIo_keeps (Disk.create_keeps htemporary)) fun _ => ?_
  apply Disk.keeps_bind (orIo_keeps Disk.inspect_keeps) fun _ => ?_
  apply Disk.keeps_bind (orIo_keeps (Disk.write_keeps htemporary bytes)) fun _ => ?_
  apply Disk.keeps_bind (orIo_keeps (Disk.sync_keeps htemporary)) fun _ => ?_
  apply Disk.keeps_bind (orIo_keeps (Disk.rename_keeps htemporary htarget)) fun _ => ?_
  exact orIo_keeps Disk.syncDirectory_keeps

theorem discard_error (temporary : Bytes) (e : StoreError) (d : Directory) :
    ∃ e', discard temporary e d = .error e' (Call.after (Disk.unlink temporary d)) := by
  unfold discard
  cases hunlink : Disk.unlink temporary d with
  | ok _ d' => exact ⟨_, rfl⟩
  | error stop d' => cases stop <;> exact ⟨_, rfl⟩

theorem Replaced.discarded {temporary : Bytes} (hne : temporary ≠ target) {e : StoreError}
    (h : Replaced target bytes d (.error (.failed e) d')) :
    Replaced target bytes d (discard temporary e d') := by
  obtain ⟨e', hresult⟩ := discard_error temporary e d'
  have hkeeps := Disk.unlink_keeps hne.symm d'
  rw [hresult]
  cases h with
  | kept hkept => exact .kept (hkept.trans hkeeps)
  | unsynced hentry hviews =>
    refine .unsynced (hkeeps.entry.trans hentry) fun view'' hview'' => ?_
    obtain ⟨view', hview', hsame'⟩ := hkeeps.views view'' hview''
    rw [hsame']
    exact hviews view' hview'

theorem put_outcome [Primitives] (process : UInt32) (hm : m.Recorded) (d : Directory) :
    Replaced (path m.mailboxId) (Store.recordOf m) d (put process m d) := by
  have hne := temporaryPath_ne_path m.mailboxId m.mailboxId process
  have houtcome := replace_outcome hne (Store.recordOf m) d
  unfold put
  rw [Store.encode_recordOf hm]
  dsimp only
  split
  · rename_i e d' hresult
    rw [hresult] at houtcome
    exact houtcome.discarded hne
  · exact houtcome

theorem put_keeps [Primitives] (process : UInt32) (hm : m.Recorded) {name : Bytes}
    (hname : name ≠ path m.mailboxId) (htemporary : name ≠ temporaryPath m.mailboxId process)
    (d : Directory) : Disk.Keeps name d (Call.after (put process m d)) := by
  have hreplace : Disk.Keeps name d (Call.after (replace _ _ (Store.recordOf m) d)) :=
    replace_keeps htemporary hname d
  unfold put
  rw [Store.encode_recordOf hm]
  dsimp only
  split
  · rename_i e d' hresult
    rw [hresult] at hreplace
    obtain ⟨e', hdiscard⟩ := discard_error (temporaryPath m.mailboxId process) e d'
    rw [hdiscard]
    exact hreplace.trans (Disk.unlink_keeps htemporary d')
  · exact hreplace

/-- What a removal can come to. A record that is not there leaves the directory unsynced. -/
inductive Removed (target : Bytes) (d : Directory) :
    EStateM.Result Halt Directory Unit → Prop
  | removed {d' : Directory} : (d.entries.lookup target).isSome → d'.past = [] →
      d'.entries.lookup target = none → Removed target d (.ok () d')
  | missing {d' : Directory} : d.entries.lookup target = none → Disk.Keeps target d d' →
      Removed target d (.ok () d')
  | kept {e : Halt} {d' : Directory} : Disk.Keeps target d d' → Removed target d (.error e d')
  | unsynced {e : Halt} {d' : Directory} : d'.entries.lookup target = none →
      (∀ view' ∈ d'.views, view'.lookup target = none ∨
        ∃ view ∈ d.views, view'.lookup target = view.lookup target) →
      Removed target d (.error e d')

theorem remove_outcome (mailboxId : Octets 32) (d : Directory) :
    Removed (path mailboxId) d (remove mailboxId d) := by
  unfold remove
  cases hunlink : Disk.unlink (path mailboxId) d with
  | error stop d₁ =>
    obtain ⟨hkeeps, hmissing⟩ : Disk.Keeps (path mailboxId) d d₁ ∧
        (stop = .missing → d.entries.lookup (path mailboxId) = none) := Disk.unlink_error hunlink
    cases stop with
    | missing => exact .missing (hmissing rfl) hkeeps
    | refused => exact .kept hkeeps
    | dead => exact .kept hkeeps
  | ok _ d₁ =>
    dsimp only
    obtain ⟨hentry, hviews⟩ := Disk.unlink_ok hunlink
    have hlast : Disk.Keeps (path mailboxId) d₁ (Call.after (Disk.syncDirectory d₁)) :=
      Disk.syncDirectory_keeps d₁
    cases hdirectory : Disk.syncDirectory d₁ with
    | ok _ d₂ =>
      rw [orIo_ok.mpr hdirectory]
      obtain ⟨hentries, hpast⟩ := Disk.syncDirectory_ok hdirectory
      refine .removed ?_ hpast (by rw [hentries]; exact hentry)
      exact Disk.unlink_found hunlink
    | error stop d₂ =>
      rw [orIo_error.mpr ⟨stop, hdirectory, rfl⟩]
      rw [hdirectory] at hlast
      refine .unsynced (hlast.entry.trans hentry) fun view'' hview'' => ?_
      obtain ⟨view', hview', hsame'⟩ := hlast.views view'' hview''
      rw [hsame']
      exact (hviews view' hview').imp_right fun hview => ⟨view', hview, rfl⟩

theorem remove_keeps {name : Bytes} {mailboxId : Octets 32} (hname : name ≠ path mailboxId)
    (d : Directory) : Disk.Keeps name d (Call.after (remove mailboxId d)) := by
  have hunlinked := Disk.unlink_keeps hname d
  unfold remove
  split
  · rename_i d₁ hunlink
    rw [hunlink] at hunlinked
    rw [orIo_after]
    exact hunlinked.trans (Disk.syncDirectory_keeps d₁)
  · rename_i d₁ hunlink
    rw [hunlink] at hunlinked
    exact hunlinked
  · rename_i stop d₁ _ hunlink
    rw [hunlink] at hunlinked
    exact hunlinked

end FileMailboxStore
end CbclPairing
