import Mathlib.Data.List.Forall2
import Mathlib.Data.Set.Basic
import Mathlib.Logic.Relation

/-! Fallible calls on mutable state, and runs of such calls. A call that fails
keeps whatever it had already changed. -/
namespace Calls

section Verdicts

variable {ε α β : Type}

@[simp] theorem ok_bind (a : α) (f : α → Except ε β) : (Except.ok a >>= f) = f a := rfl

@[simp] theorem error_bind (e : ε) (f : α → Except ε β) :
    ((Except.error e : Except ε α) >>= f) = .error e := rfl

@[simp] theorem except_bind_eq_ok {x : Except ε α} {f : α → Except ε β} {b : β} :
    (x >>= f) = .ok b ↔ ∃ a, x = .ok a ∧ f a = .ok b := by
  cases x <;> simp

theorem except_bind_eq_error {x : Except ε α} {f : α → Except ε β} {e : ε} :
    (x >>= f) = .error e ↔ x = .error e ∨ ∃ a, x = .ok a ∧ f a = .error e := by
  cases x <;> simp

theorem guard_eq_ok {c : Prop} [Decidable c] {e : ε} {x : Except ε α} {a : α} :
    (if c then .error e else x) = .ok a ↔ ¬c ∧ x = .ok a := by
  split_ifs with h <;> simp [h]

@[simp] theorem mapError_eq_ok {ε' : Type} {f : ε → ε'} {x : Except ε α} {a : α} :
    x.mapError f = .ok a ↔ x = .ok a := by
  cases x <;> simp [Except.mapError]

/-- A traversal succeeds when it succeeds on every entry. -/
theorem mapM_eq_ok {f : α → Except ε β} {xs : List α} {ys : List β} :
    xs.mapM f = .ok ys ↔ List.Forall₂ (fun x y => f x = .ok y) xs ys := by
  induction xs generalizing ys with
  | nil =>
    rw [List.mapM_nil, List.forall₂_nil_left_iff]
    exact ⟨fun h => (Except.ok.inj h).symm, fun h => h ▸ rfl⟩
  | cons x xs ih =>
    rw [List.mapM_cons, List.forall₂_cons_left_iff]
    simp only [except_bind_eq_ok, ih]
    constructor
    · rintro ⟨y, hy, rest, hrest, hys⟩
      exact ⟨y, rest, hy, hrest, (Except.ok.inj hys).symm⟩
    · rintro ⟨y, rest, hy, hrest, hys⟩
      exact ⟨y, hy, rest, hrest, hys ▸ rfl⟩

theorem mapM_mem {f : α → Except ε β} {xs : List α} {ys : List β} (h : xs.mapM f = .ok ys)
    {y : β} (hy : y ∈ ys) : ∃ x ∈ xs, f x = .ok y := by
  have hall := mapM_eq_ok.mp h
  clear h
  induction hall with
  | nil => cases hy
  | @cons x _ xs _ hx _ ih =>
    obtain rfl | hy := List.mem_cons.mp hy
    · exact ⟨x, List.mem_cons_self, hx⟩
    · obtain ⟨x', hmem, hx'⟩ := ih hy
      exact ⟨x', List.mem_cons_of_mem x hmem, hx'⟩

theorem mapM_mem_left {f : α → Except ε β} {xs : List α} {ys : List β} (h : xs.mapM f = .ok ys)
    {x : α} (hx : x ∈ xs) : ∃ y ∈ ys, f x = .ok y := by
  have hall := mapM_eq_ok.mp h
  clear h
  induction hall with
  | nil => cases hx
  | @cons _ y _ ys hy _ ih =>
    obtain rfl | hx := List.mem_cons.mp hx
    · exact ⟨y, List.mem_cons_self, hy⟩
    · obtain ⟨y', hmem, hy'⟩ := ih hx
      exact ⟨y', List.mem_cons_of_mem y hmem, hy'⟩

theorem mapM_exists {f : α → Except ε β} {xs : List α} (h : ∀ x ∈ xs, ∃ y, f x = .ok y) :
    ∃ ys, xs.mapM f = .ok ys := by
  induction xs with
  | nil => exact ⟨[], rfl⟩
  | cons x xs ih =>
    obtain ⟨y, hy⟩ := h x List.mem_cons_self
    obtain ⟨ys, hys⟩ := ih fun z hz => h z (List.mem_cons_of_mem x hz)
    refine ⟨y :: ys, ?_⟩
    rw [List.mapM_cons, hy, ok_bind, hys]
    rfl

theorem mapM_ok {f : α → Except ε β} {g : α → β} {xs : List α} (h : ∀ x ∈ xs, f x = .ok (g x)) :
    xs.mapM f = .ok (xs.map g) := by
  rw [mapM_eq_ok, List.forall₂_map_right_iff, List.forall₂_same]
  exact h

/-- The value of a verdict known to be good. -/
def value : (x : Except ε α) → x.isOk = true → α
  | .ok a, _ => a

theorem eq_ok_value (x : Except ε α) (h : x.isOk = true) : x = .ok (value x h) := by
  cases x with
  | ok a => rfl
  | error e => cases h

/-- What every iteration of a loop keeps holds behind it. -/
theorem foldlM_invariant {f : β → α → Except ε β} {P : ℕ → β → Prop} {xs : List α} {b b' : β}
    (hstep : ∀ i (h : i < xs.length) b b', P i b → f b xs[i] = .ok b' → P (i + 1) b')
    (hstart : P 0 b) (h : xs.foldlM f b = .ok b') : P xs.length b' := by
  induction xs generalizing P b with
  | nil => exact Except.ok.inj h ▸ hstart
  | cons x xs ih =>
    obtain ⟨b₁, hfirst, hrest⟩ := except_bind_eq_ok.mp h
    apply ih (P := fun i => P (i + 1)) _ (hstep 0 (by simp) _ _ hstart hfirst) hrest
    intro i hi b₁ b₂ hb
    exact hstep (i + 1) (by simpa using hi) b₁ b₂ hb

/-- A loop whose iterations all succeed succeeds. -/
theorem foldlM_total {f : β → α → Except ε β} {P : ℕ → β → Prop} {xs : List α} {b : β}
    (hstep : ∀ i (h : i < xs.length) b, P i b → ∃ b', f b xs[i] = .ok b' ∧ P (i + 1) b')
    (hstart : P 0 b) : ∃ b', xs.foldlM f b = .ok b' ∧ P xs.length b' := by
  induction xs generalizing P b with
  | nil => exact ⟨b, rfl, hstart⟩
  | cons x xs ih =>
    obtain ⟨b₁, hfirst, hb₁⟩ := hstep 0 (by simp) b hstart
    obtain ⟨b', hrest, hb'⟩ := ih (P := fun i => P (i + 1))
      (fun i hi b hb => hstep (i + 1) (by simpa using hi) b hb) hb₁
    exact ⟨b', except_bind_eq_ok.mpr ⟨b₁, hfirst, hrest⟩, hb'⟩

end Verdicts

/-- One call: its result and the state it leaves, on success and on failure. -/
abbrev Call (ε σ α : Type) := EStateM ε σ α

namespace Call

variable {ε σ τ α β : Type}

def ofExcept : Except ε α → Call ε σ α
  | .ok a, s => .ok a s
  | .error e, s => .error e s

def orThrow (e : ε) : Option α → Call ε σ α
  | some a, s => .ok a s
  | none, s => .error e s

/-- Run a call on a part of the state. -/
def zoom (part : σ → τ) (put : τ → σ → σ) (m : Call ε τ α) : Call ε σ α := fun s =>
  match m (part s) with
  | .ok a t => .ok a (put t s)
  | .error e t => .error e (put t s)

/-- Run a call on a part of the state that need not be there. -/
def zoom? (e : ε) (part : σ → Option τ) (put : τ → σ → σ) (m : Call ε τ α) : Call ε σ α := fun s =>
  match part s with
  | none => .error e s
  | some t =>
    match m t with
    | .ok a t' => .ok a (put t' s)
    | .error e t' => .error e (put t' s)

/-- Run a call and hand out its verdict instead of failing. -/
def attempt {ε' : Type} (m : Call ε σ α) : Call ε' σ (Except ε α) := fun s =>
  match m s with
  | .ok a t => .ok (.ok a) t
  | .error e t => .ok (.error e) t

/-- The verdict of a call, without its state. -/
def verdict : EStateM.Result ε σ α → Except ε α
  | .ok a _ => .ok a
  | .error e _ => .error e

/-- The state a call leaves. -/
def after : EStateM.Result ε σ α → σ
  | .ok _ s => s
  | .error _ s => s

@[simp] theorem verdict_ok (a : α) (s : σ) : verdict (.ok a s : EStateM.Result ε σ α) = .ok a := rfl

@[simp] theorem verdict_error (e : ε) (s : σ) :
    verdict (.error e s : EStateM.Result ε σ α) = .error e := rfl

@[simp] theorem after_ok (a : α) (s : σ) : after (.ok a s : EStateM.Result ε σ α) = s := rfl

@[simp] theorem after_error (e : ε) (s : σ) :
    after (.error e s : EStateM.Result ε σ α) = s := rfl

theorem after_map (f : α → β) (x : Call ε σ α) (s : σ) : after ((f <$> x) s) = after (x s) := by
  simp only [Functor.map, EStateM.map]
  cases x s <;> rfl

theorem verdict_eq_ok {r : EStateM.Result ε σ α} {a : α} :
    verdict r = .ok a ↔ ∃ s, r = .ok a s := by
  cases r <;> simp [verdict]

/-! ### What a successful call went through -/

@[simp] theorem bind_eq_ok {x : Call ε σ α} {f : α → Call ε σ β} {s t : σ} {b : β} :
    (x >>= f) s = .ok b t ↔ ∃ a s', x s = .ok a s' ∧ f a s' = .ok b t := by
  simp only [bind, EStateM.bind]
  cases x s <;> aesop

@[simp] theorem map_eq_ok {x : Call ε σ α} {f : α → β} {s t : σ} {b : β} :
    (f <$> x) s = .ok b t ↔ ∃ a, x s = .ok a t ∧ f a = b := by
  simp only [Functor.map, EStateM.map]
  cases x s <;> aesop

@[simp] theorem pure_eq_ok {a b : α} {s t : σ} :
    (pure a : Call ε σ α) s = .ok b t ↔ a = b ∧ s = t := by
  simp [pure, EStateM.pure]

@[simp] theorem throw_eq_ok {e : ε} {b : α} {s t : σ} :
    (throw e : Call ε σ α) s = .ok b t ↔ False := by
  show EStateM.Result.error e s = .ok b t ↔ False
  simp

theorem guard_eq_ok {c : Prop} [Decidable c] {e : ε} {m : Call ε σ α} {s t : σ} {a : α} :
    (if c then throw e else m) s = .ok a t ↔ ¬c ∧ m s = .ok a t := by
  split_ifs with h <;> simp [h]

@[simp] theorem get_eq_ok {a s t : σ} :
    (get : Call ε σ σ) s = .ok a t ↔ s = a ∧ s = t := by
  show (EStateM.Result.ok s s : EStateM.Result ε σ σ) = .ok a t ↔ s = a ∧ s = t
  simp

@[simp] theorem set_eq_ok {a s t : σ} {u : PUnit} :
    (set a : Call ε σ PUnit) s = .ok u t ↔ a = t := by
  show (EStateM.Result.ok ⟨⟩ a : EStateM.Result ε σ PUnit) = .ok u t ↔ a = t
  simp

@[simp] theorem modify_eq_ok {f : σ → σ} {s t : σ} {u : PUnit} :
    (modify f : Call ε σ PUnit) s = .ok u t ↔ f s = t := by
  show (EStateM.Result.ok ⟨⟩ (f s) : EStateM.Result ε σ PUnit) = .ok u t ↔ f s = t
  simp

@[simp] theorem ofExcept_eq_ok {x : Except ε α} {a : α} {s t : σ} :
    ofExcept x s = .ok a t ↔ x = .ok a ∧ s = t := by
  cases x <;> simp [ofExcept]

@[simp] theorem orThrow_eq_ok {e : ε} {x : Option α} {a : α} {s t : σ} :
    orThrow e x s = .ok a t ↔ x = some a ∧ s = t := by
  cases x <;> simp [orThrow]

@[simp] theorem zoom_eq_ok {part : σ → τ} {put : τ → σ → σ} {m : Call ε τ α} {s t : σ} {a : α} :
    zoom part put m s = .ok a t ↔ ∃ u, m (part s) = .ok a u ∧ put u s = t := by
  unfold zoom
  cases m (part s) <;> aesop

@[simp] theorem zoom?_eq_ok {e : ε} {part : σ → Option τ} {put : τ → σ → σ} {m : Call ε τ α}
    {s t : σ} {a : α} :
    zoom? e part put m s = .ok a t ↔
      ∃ u v, part s = some u ∧ m u = .ok a v ∧ put v s = t := by
  unfold zoom?
  cases part s with
  | none => simp
  | some u => cases hm : m u <;> aesop

/-! ### Where a failed call stopped -/

theorem bind_eq_error {x : Call ε σ α} {f : α → Call ε σ β} {s t : σ} {e : ε} :
    (x >>= f) s = .error e t ↔
      x s = .error e t ∨ ∃ a s', x s = .ok a s' ∧ f a s' = .error e t := by
  simp only [bind, EStateM.bind]
  cases x s <;> aesop

@[simp] theorem pure_eq_error {a : α} {s t : σ} {e : ε} :
    (pure a : Call ε σ α) s = .error e t ↔ False := by
  simp [pure, EStateM.pure]

@[simp] theorem throw_eq_error {e e' : ε} {s t : σ} :
    (throw e : Call ε σ α) s = .error e' t ↔ e = e' ∧ s = t := by
  show (EStateM.Result.error e s : EStateM.Result ε σ α) = .error e' t ↔ e = e' ∧ s = t
  simp

@[simp] theorem get_eq_error {s t : σ} {e : ε} :
    (get : Call ε σ σ) s = .error e t ↔ False := by
  show (EStateM.Result.ok s s : EStateM.Result ε σ σ) = .error e t ↔ False
  simp

@[simp] theorem set_eq_error {a s t : σ} {e : ε} :
    (set a : Call ε σ PUnit) s = .error e t ↔ False := by
  show (EStateM.Result.ok ⟨⟩ a : EStateM.Result ε σ PUnit) = .error e t ↔ False
  simp

@[simp] theorem ofExcept_eq_error {x : Except ε α} {s t : σ} {e : ε} :
    ofExcept x s = .error e t ↔ x = .error e ∧ s = t := by
  cases x <;> simp [ofExcept]

@[simp] theorem orThrow_eq_error {e e' : ε} {x : Option α} {s t : σ} :
    orThrow e x s = .error e' t ↔ x = none ∧ e = e' ∧ s = t := by
  cases x <;> simp [orThrow]

@[simp] theorem zoom_eq_error {part : σ → τ} {put : τ → σ → σ} {m : Call ε τ α} {s t : σ} {e : ε} :
    zoom part put m s = .error e t ↔ ∃ u, m (part s) = .error e u ∧ put u s = t := by
  unfold zoom
  cases m (part s) <;> aesop

/-! ### Running a call whose parts are known -/

theorem run_bind {x : Call ε σ α} {f : α → Call ε σ β} {s s' : σ} {a : α}
    (h : x s = .ok a s') : (x >>= f) s = f a s' := by
  simp [bind, EStateM.bind, h]

theorem run_bind_error {x : Call ε σ α} {f : α → Call ε σ β} {s s' : σ} {e : ε}
    (h : x s = .error e s') : (x >>= f) s = .error e s' := by
  simp [bind, EStateM.bind, h]

theorem run_zoom {part : σ → τ} {put : τ → σ → σ} {m : Call ε τ α} {s : σ} {t : τ} {a : α}
    (h : m (part s) = .ok a t) : zoom part put m s = .ok a (put t s) := by
  simp [zoom, h]

theorem run_zoom? {e : ε} {part : σ → Option τ} {put : τ → σ → σ} {m : Call ε τ α}
    {s : σ} {t u : τ} {a : α} (hpart : part s = some t) (h : m t = .ok a u) :
    zoom? e part put m s = .ok a (put u s) := by
  simp [zoom?, hpart, h]

@[simp] theorem run_pure (a : α) (s : σ) : (pure a : Call ε σ α) s = .ok a s := rfl

@[simp] theorem run_throw (e : ε) (s : σ) : (throw e : Call ε σ α) s = .error e s := rfl

@[simp] theorem run_get (s : σ) : (get : Call ε σ σ) s = .ok s s := rfl

@[simp] theorem run_modify (f : σ → σ) (s : σ) :
    (modify f : Call ε σ PUnit) s = .ok ⟨⟩ (f s) := rfl

@[simp] theorem run_ofExcept_ok (a : α) (s : σ) :
    ofExcept (.ok a : Except ε α) s = .ok a s := rfl

@[simp] theorem run_ofExcept_error (e : ε) (s : σ) :
    ofExcept (.error e : Except ε α) s = .error e s := rfl

@[simp] theorem run_orThrow_some (e : ε) (a : α) (s : σ) :
    orThrow e (some a) s = .ok a s := rfl

@[simp] theorem run_orThrow_none (e : ε) (s : σ) :
    (orThrow e none : Call ε σ α) s = .error e s := rfl

end Call
end Calls
