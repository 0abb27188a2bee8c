import CbclPairing.Calls
import CbclPairing.Tables

/-! One directory of files on a disk that keeps for certain only what was synced. Any
call on it may fail, and the program may die before any of them. -/
namespace Disks
open Calls Tables

/-- What becomes of a call. A write that fails may have written a part. -/
inductive Fate where
  | done
  | fails (written : ℕ)
  | dies
  deriving DecidableEq

/-- Why a call gives no answer. -/
inductive Stop where
  | missing
  | refused
  | dead
  deriving DecidableEq

structure File (β : Type) where
  content : List β
  synced : Bool
  deriving DecidableEq

/-- A file whose content survives a crash. -/
def File.whole {β : Type} (content : List β) : File β := ⟨content, true⟩

theorem File.whole_injective {β : Type} : Function.Injective (File.whole (β := β)) := by
  intro a b h
  exact congrArg File.content h

abbrev View (ν β : Type) := Table ν (File β)

/-- The directory as every reader sees it, what it has shown since its entries were
last synced, and the fates of the calls to come. -/
structure Disk (ν β : Type) where
  entries : View ν β
  past : List (View ν β)
  fates : List Fate

namespace Disk

variable {ν β : Type} [DecidableEq ν]

/-- Everything a crash may take an entry from. -/
def views (d : Disk ν β) : List (View ν β) := d.entries :: d.past

/-- Show other entries, which nothing has synced yet. -/
def turn (d : Disk ν β) (view : View ν β) : Disk ν β :=
  { d with entries := view, past := d.views }

/-- The disk after the fate of one call. -/
def spent (d : Disk ν β) : Disk ν β := { d with fates := d.fates.tail }

def attempt {α : Type} (failed : ℕ → Disk ν β → Disk ν β) (act : Call Stop (Disk ν β) α) :
    Call Stop (Disk ν β) α := fun d =>
  match d.fates.head? with
  | some .dies => .error .dead d.spent
  | some (.fails written) => .error .refused (failed written d.spent)
  | _ => act d.spent

/-- A call that leaves every entry and its content alone. -/
def inspect : Call Stop (Disk ν β) Unit := attempt (fun _ d => d) fun d => .ok () d

/-- Make a new empty file. -/
def create (name : ν) : Call Stop (Disk ν β) Unit :=
  attempt (fun _ d => d) fun d =>
    if (d.entries.lookup name).isSome then .error .refused d
    else .ok () (d.turn (d.entries.insert name ⟨[], false⟩))

def written (name : ν) (bytes : List β) (d : Disk ν β) : Disk ν β :=
  match d.entries.lookup name with
  | none => d
  | some f => d.turn (d.entries.insert name ⟨f.content ++ bytes, false⟩)

/-- Append to a file. -/
def write (name : ν) (bytes : List β) : Call Stop (Disk ν β) Unit :=
  attempt (fun part d => d.written name (bytes.take part)) fun d =>
    if (d.entries.lookup name).isSome then .ok () (d.written name bytes) else .error .missing d

/-- Make the content of a file safe. -/
def sync (name : ν) : Call Stop (Disk ν β) Unit :=
  attempt (fun _ d => d) fun d =>
    match d.entries.lookup name with
    | none => .error .missing d
    | some f => .ok () (d.turn (d.entries.insert name (.whole f.content)))

/-- Give a file another name, in place of what had that name. -/
def rename (source target : ν) : Call Stop (Disk ν β) Unit :=
  attempt (fun _ d => d) fun d =>
    match d.entries.lookup source with
    | none => .error .missing d
    | some f => .ok () (d.turn (Finmap.insert target f (d.entries.erase source)))

def unlink (name : ν) : Call Stop (Disk ν β) Unit :=
  attempt (fun _ d => d) fun d =>
    if (d.entries.lookup name).isSome then .ok () (d.turn (d.entries.erase name))
    else .error .missing d

/-- Make the entries of the directory safe. -/
def syncDirectory : Call Stop (Disk ν β) Unit :=
  attempt (fun _ d => d) fun d => .ok () { d with past := [] }

def read (name : ν) : Call Stop (Disk ν β) (List β) :=
  attempt (fun _ d => d) fun d =>
    match d.entries.lookup name with
    | none => .error .missing d
    | some f => .ok f.content d

/-! ### Frames -/

/-- An entry is what it was, and has been nothing new. -/
structure Keeps (name : ν) (d d' : Disk ν β) : Prop where
  entry : d'.entries.lookup name = d.entries.lookup name
  views : ∀ view' ∈ d'.views, ∃ view ∈ d.views, view'.lookup name = view.lookup name

variable {name other : ν} {d d' d'' : Disk ν β}

theorem Keeps.refl (name : ν) (d : Disk ν β) : Keeps name d d :=
  ⟨rfl, fun view hview => ⟨view, hview, rfl⟩⟩

theorem Keeps.trans (h : Keeps name d d') (h' : Keeps name d' d'') : Keeps name d d'' := by
  refine ⟨h'.entry.trans h.entry, fun view'' hview'' => ?_⟩
  obtain ⟨view', hview', hsame'⟩ := h'.views view'' hview''
  obtain ⟨view, hview, hsame⟩ := h.views view' hview'
  exact ⟨view, hview, hsame'.trans hsame⟩

theorem keeps_turn {view : View ν β} (h : view.lookup name = d.entries.lookup name) :
    Keeps name d (d.turn view) := by
  refine ⟨h, fun view' hview' => ?_⟩
  rcases List.mem_cons.mp hview' with rfl | hpast
  · exact ⟨d.entries, List.mem_cons_self, h⟩
  · exact ⟨view', hpast, rfl⟩

theorem keeps_synced : Keeps name d { d with past := [] } := by
  refine ⟨rfl, fun view' hview' => ?_⟩
  obtain rfl := List.mem_singleton.mp hview'
  exact ⟨d.entries, List.mem_cons_self, rfl⟩

theorem keeps_spent : Keeps name d d.spent := ⟨rfl, fun view hview => ⟨view, hview, rfl⟩⟩

theorem keeps_attempt {α : Type} {failed : ℕ → Disk ν β → Disk ν β}
    {act : Call Stop (Disk ν β) α} (hfailed : ∀ part d, Keeps name d (failed part d))
    (hact : ∀ d, Keeps name d (Call.after (act d))) (d : Disk ν β) :
    Keeps name d (Call.after (attempt failed act d)) := by
  unfold attempt
  split
  · exact keeps_spent
  · exact keeps_spent.trans (hfailed _ _)
  · exact keeps_spent.trans (hact _)

theorem keeps_bind {ε α γ : Type} {x : Call ε (Disk ν β) α} {f : α → Call ε (Disk ν β) γ}
    (hx : ∀ d, Keeps name d (Call.after (x d))) (hf : ∀ a d, Keeps name d (Call.after (f a d)))
    (d : Disk ν β) : Keeps name d (Call.after ((x >>= f) d)) := by
  have hfirst := hx d
  cases hresult : x d with
  | ok a d' =>
    rw [Call.run_bind hresult]
    rw [hresult] at hfirst
    exact hfirst.trans (hf a d')
  | error e d' =>
    rw [Call.run_bind_error hresult]
    rw [hresult] at hfirst
    exact hfirst

theorem inspect_keeps (d : Disk ν β) : Keeps name d (Call.after (inspect d)) :=
  keeps_attempt (fun _ => Keeps.refl name) (Keeps.refl name) d

theorem create_keeps (h : name ≠ other) (d : Disk ν β) :
    Keeps name d (Call.after (create other d)) := by
  apply keeps_attempt (fun _ => Keeps.refl name)
  intro d
  split_ifs
  · exact Keeps.refl name d
  · exact keeps_turn (Finmap.lookup_insert_of_ne _ h)

theorem written_keeps (h : name ≠ other) (bytes : List β) (d : Disk ν β) :
    Keeps name d (d.written other bytes) := by
  unfold written
  split
  · exact Keeps.refl name d
  · exact keeps_turn (Finmap.lookup_insert_of_ne _ h)

theorem write_keeps (h : name ≠ other) (bytes : List β) (d : Disk ν β) :
    Keeps name d (Call.after (write other bytes d)) := by
  apply keeps_attempt fun part => written_keeps h (bytes.take part)
  intro d
  split_ifs
  · exact written_keeps h bytes d
  · exact Keeps.refl name d

theorem sync_keeps (h : name ≠ other) (d : Disk ν β) :
    Keeps name d (Call.after (sync other d)) := by
  apply keeps_attempt (fun _ => Keeps.refl name)
  intro d
  split
  · exact Keeps.refl name d
  · exact keeps_turn (Finmap.lookup_insert_of_ne _ h)

theorem rename_keeps {source target : ν} (hsource : name ≠ source) (htarget : name ≠ target)
    (d : Disk ν β) : Keeps name d (Call.after (rename source target d)) := by
  apply keeps_attempt (fun _ => Keeps.refl name)
  intro d
  split
  · exact Keeps.refl name d
  · apply keeps_turn
    rw [Finmap.lookup_insert_of_ne _ htarget, Finmap.lookup_erase_ne hsource]

theorem unlink_keeps (h : name ≠ other) (d : Disk ν β) :
    Keeps name d (Call.after (unlink other d)) := by
  apply keeps_attempt (fun _ => Keeps.refl name)
  intro d
  split_ifs
  · exact keeps_turn (Finmap.lookup_erase_ne h)
  · exact Keeps.refl name d

theorem syncDirectory_keeps (d : Disk ν β) : Keeps name d (Call.after (syncDirectory d)) :=
  keeps_attempt (fun _ => Keeps.refl name) (fun _ => keeps_synced) d

theorem read_keeps (d : Disk ν β) : Keeps name d (Call.after (read other d)) := by
  apply keeps_attempt (fun _ => Keeps.refl name)
  intro d
  split <;> exact Keeps.refl name d

/-! ### What a call that succeeds has done -/

omit [DecidableEq ν] in
theorem attempt_ok {α : Type} {failed : ℕ → Disk ν β → Disk ν β} {act : Call Stop (Disk ν β) α}
    {a : α} (h : attempt failed act d = .ok a d') :
    act d.spent = .ok a d' := by
  unfold attempt at h
  split at h
  · cases h
  · cases h
  · exact h

omit [DecidableEq ν] in
/-- With no fates left, calls do what they can. -/
theorem attempt_calm {α : Type} (h : d.fates = []) (failed : ℕ → Disk ν β → Disk ν β)
    (act : Call Stop (Disk ν β) α) : attempt failed act d = act d := by
  have hspent : d.spent = d := by
    cases d
    cases h
    rfl
  rw [attempt, h, hspent]
  rfl

omit [DecidableEq ν] in
theorem inspect_calm (h : d.fates = []) : inspect d = .ok () d := attempt_calm h _ _

theorem unlink_calm (h : d.fates = []) (hfound : (d.entries.lookup name).isSome = true) :
    unlink name d = .ok () (d.turn (d.entries.erase name)) :=
  (attempt_calm h _ _).trans (if_pos hfound)

omit [DecidableEq ν] in
theorem syncDirectory_calm (h : d.fates = []) :
    syncDirectory d = .ok () { d with past := [] } := attempt_calm h _ _

theorem read_calm (h : d.fates = []) {f : File β} (hfound : d.entries.lookup name = some f) :
    read name d = .ok f.content d := by
  refine (attempt_calm h _ _).trans ?_
  rw [hfound]

theorem create_ok (h : create name d = .ok () d') :
    d'.entries.lookup name = some ⟨[], false⟩ := by
  have hact := attempt_ok h
  split_ifs at hact
  · cases hact
    exact Finmap.lookup_insert _

theorem write_ok {bytes : List β} (h : write name bytes d = .ok () d') :
    ∃ f, d.entries.lookup name = some f ∧
      d'.entries.lookup name = some ⟨f.content ++ bytes, false⟩ := by
  have hact := attempt_ok h
  split_ifs at hact with hsome
  obtain ⟨f, hlookup⟩ := Option.isSome_iff_exists.mp hsome
  cases hact
  refine ⟨f, hlookup, ?_⟩
  simp only [written, hlookup]
  exact Finmap.lookup_insert _

theorem sync_ok (h : sync name d = .ok () d') :
    ∃ f, d.entries.lookup name = some f ∧ d'.entries.lookup name = some (.whole f.content) := by
  have hact := attempt_ok h
  split at hact
  · cases hact
  · rename_i f hlookup
    cases hact
    exact ⟨f, hlookup, Finmap.lookup_insert _⟩

theorem rename_ok {source target : ν} (h : rename source target d = .ok () d') :
    ∃ f, d.entries.lookup source = some f ∧ d'.entries.lookup target = some f ∧
      ∀ view' ∈ d'.views, view'.lookup target = some f ∨ view' ∈ d.views := by
  have hact := attempt_ok h
  split at hact
  · cases hact
  · rename_i f hlookup
    cases hact
    refine ⟨f, hlookup, Finmap.lookup_insert _, fun view' hview' => ?_⟩
    rcases List.mem_cons.mp hview' with rfl | hpast
    · exact .inl (Finmap.lookup_insert _)
    · exact .inr hpast

theorem rename_error {source target : ν} {e : Stop} (h : rename source target d = .error e d') :
    Keeps name d d' := by
  unfold rename attempt at h
  split at h
  · cases h
    exact keeps_spent
  · cases h
    exact keeps_spent
  · dsimp only at h
    split at h
    · cases h
      exact keeps_spent
    · cases h

theorem unlink_ok (h : unlink name d = .ok () d') :
    d'.entries.lookup name = none ∧
      ∀ view' ∈ d'.views, view'.lookup name = none ∨ view' ∈ d.views := by
  have hact := attempt_ok h
  split_ifs at hact
  · cases hact
    refine ⟨Finmap.lookup_erase name _, fun view' hview' => ?_⟩
    rcases List.mem_cons.mp hview' with rfl | hpast
    · exact .inl (Finmap.lookup_erase name _)
    · exact .inr hpast

theorem unlink_found (h : unlink name d = .ok () d') : (d.entries.lookup name).isSome := by
  have hact := attempt_ok h
  split_ifs at hact with hsome
  exact hsome

theorem unlink_error {e : Stop} (h : unlink name d = .error e d') :
    Keeps other d d' ∧ (e = .missing → d.entries.lookup name = none) := by
  unfold unlink attempt at h
  split at h
  · cases h
    exact ⟨keeps_spent, by simp⟩
  · cases h
    exact ⟨keeps_spent, by simp⟩
  · dsimp only at h
    split_ifs at h with hsome
    cases h
    exact ⟨keeps_spent, fun _ => by simpa [spent] using hsome⟩

omit [DecidableEq ν] in
theorem syncDirectory_ok (h : syncDirectory d = .ok () d') :
    d'.entries = d.entries ∧ d'.past = [] := by
  cases attempt_ok h
  exact ⟨rfl, rfl⟩

theorem read_ok {bytes : List β} (h : read name d = .ok bytes d') :
    ∃ f, d.entries.lookup name = some f ∧ f.content = bytes := by
  have hact := attempt_ok h
  split at hact
  · cases hact
  · rename_i f hlookup
    cases hact
    exact ⟨f, hlookup, rfl⟩

/-! ### Crashes -/

/-- An entry after a crash, for one it may be taken from. -/
inductive Remains : Option (File β) → Option (File β) → Prop
  | absent : Remains none none
  | kept {f : File β} {content : List β} : (f.synced = true → content = f.content) →
      Remains (some f) (some (.whole content))

/-- What a crash may leave: each entry as it was at some moment since the directory was
last synced, with any content if the file was not. -/
structure Crash (d d' : Disk ν β) : Prop where
  settled : d'.past = []
  remains : ∀ name, ∃ view ∈ d.views, Remains (view.lookup name) (d'.entries.lookup name)

/-- All an entry has been is whole, and one of these. -/
def Shows (name : ν) (S : Set (Option (List β))) (d : Disk ν β) : Prop :=
  ∀ view ∈ d.views, ∃ content ∈ S, view.lookup name = content.map .whole

variable {S T : Set (Option (List β))}

theorem Shows.mono (h : Shows name S d) (hsub : S ⊆ T) : Shows name T d := by
  intro view hview
  obtain ⟨content, hcontent, hlookup⟩ := h view hview
  exact ⟨content, hsub hcontent, hlookup⟩

theorem Keeps.shows (hkeeps : Keeps name d d') (h : Shows name S d) : Shows name S d' := by
  intro view' hview'
  obtain ⟨view, hview, hsame⟩ := hkeeps.views view' hview'
  obtain ⟨content, hcontent, hlookup⟩ := h view hview
  exact ⟨content, hcontent, hsame.trans hlookup⟩

/-- The entry as it is seen now. -/
theorem Shows.entry (h : Shows name S d) :
    ∃ content ∈ S, d.entries.lookup name = content.map .whole :=
  h d.entries List.mem_cons_self

/-- A settled entry shows only what is seen. -/
theorem shows_settled {content : Option (List β)} (hpast : d.past = [])
    (hentry : d.entries.lookup name = content.map .whole) : Shows name {content} d := by
  intro view hview
  rw [views, hpast] at hview
  obtain rfl := List.mem_singleton.mp hview
  exact ⟨content, rfl, hentry⟩

theorem Crash.shows (hcrash : Crash d d') (h : Shows name S d) :
    ∃ content ∈ S, Shows name {content} d' := by
  obtain ⟨view, hview, hremains⟩ := hcrash.remains name
  obtain ⟨content, hcontent, hlookup⟩ := h view hview
  refine ⟨content, hcontent, shows_settled hcrash.settled ?_⟩
  rw [hlookup] at hremains
  cases content with
  | none =>
    cases hleft : d'.entries.lookup name with
    | none => rfl
    | some f =>
      rw [hleft] at hremains
      cases hremains
  | some bytes =>
    cases hleft : d'.entries.lookup name with
    | none =>
      rw [hleft] at hremains
      cases hremains
    | some f =>
      rw [hleft] at hremains
      cases hremains with
      | kept hkept =>
        rw [hkept rfl]
        rfl

end Disk
end Disks
