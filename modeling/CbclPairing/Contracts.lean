import CbclPairing.Calls

/-! Contracts of fallible calls: what holds of the result and the state after a
success, and what holds after a failure. -/
namespace Calls
namespace Call

variable {ε σ τ α β : Type}

/-- A call from a state that meets one condition when it succeeds and another when it
fails. -/
def Meets (m : Call ε σ α) (Q : α → σ → Prop) (E : ε → σ → Prop) (s : σ) : Prop :=
  match m s with
  | .ok a t => Q a t
  | .error e t => E e t

variable {Q Q' : α → σ → Prop} {E E' : ε → σ → Prop} {s t : σ}

theorem meets_iff {m : Call ε σ α} : m.Meets Q E s ↔
    (∀ a t, m s = .ok a t → Q a t) ∧ ∀ e t, m s = .error e t → E e t := by
  unfold Meets
  cases m s <;> simp

theorem Meets.ok {m : Call ε σ α} (h : m.Meets Q E s) {a : α} (hm : m s = .ok a t) : Q a t :=
  (meets_iff.mp h).1 a t hm

theorem Meets.error {m : Call ε σ α} (h : m.Meets Q E s) {e : ε} (hm : m s = .error e t) : E e t :=
  (meets_iff.mp h).2 e t hm

theorem meets_of_ok {m : Call ε σ α} {a : α} (hm : m s = .ok a t) (h : Q a t) : m.Meets Q E s := by
  unfold Meets
  rw [hm]
  exact h

theorem Meets.mono {m : Call ε σ α} (h : m.Meets Q E s) (hQ : ∀ a t, Q a t → Q' a t)
    (hE : ∀ e t, E e t → E' e t) : m.Meets Q' E' s :=
  meets_iff.mpr ⟨fun a t hm => hQ a t (h.ok hm), fun e t hm => hE e t (h.error hm)⟩

theorem Meets.and {m : Call ε σ α} (h : m.Meets Q E s) (h' : m.Meets Q' E' s) :
    m.Meets (fun a t => Q a t ∧ Q' a t) (fun e t => E e t ∧ E' e t) s :=
  meets_iff.mpr ⟨fun _ _ hm => ⟨h.ok hm, h'.ok hm⟩, fun _ _ hm => ⟨h.error hm, h'.error hm⟩⟩

/-- A contract with one condition on the state, whatever the result. -/
theorem Meets.after {m : Call ε σ α} {P : σ → Prop} (h : m.Meets (fun _ => P) (fun _ => P) s) :
    P (after (m s)) := by
  unfold Meets at h
  revert h
  cases m s <;> exact id

/-! ### One rule for each way to build a call -/

@[simp] theorem meets_pure {a : α} : (pure a : Call ε σ α).Meets Q E s ↔ Q a s := Iff.rfl

@[simp] theorem meets_throw {e : ε} : (throw e : Call ε σ α).Meets Q E s ↔ E e s := Iff.rfl

@[simp] theorem meets_get {Q : σ → σ → Prop} : (get : Call ε σ σ).Meets Q E s ↔ Q s s := Iff.rfl

@[simp] theorem meets_set {Q : PUnit → σ → Prop} :
    (set t : Call ε σ PUnit).Meets Q E s ↔ Q ⟨⟩ t := Iff.rfl

@[simp] theorem meets_modify {f : σ → σ} {Q : PUnit → σ → Prop} :
    (modify f : Call ε σ PUnit).Meets Q E s ↔ Q ⟨⟩ (f s) := Iff.rfl

@[simp] theorem meets_bind {m : Call ε σ β} {f : β → Call ε σ α} :
    (m >>= f).Meets Q E s ↔ m.Meets (fun b t => (f b).Meets Q E t) E s := by
  unfold Meets
  simp only [bind, EStateM.bind]
  cases m s <;> rfl

/-- The last part of a call decides what holds of its result, whatever ran before. -/
theorem meets_last {m : Call ε σ β} {f : β → Call ε σ α} {R : α → Prop}
    (h : ∀ b t, (f b).Meets (fun a _ => R a) (fun _ _ => True) t) :
    (m >>= f).Meets (fun a _ => R a) (fun _ _ => True) s := by
  rw [meets_bind, meets_iff]
  exact ⟨fun b t _ => h b t, fun _ _ _ => trivial⟩

@[simp] theorem meets_map {m : Call ε σ β} {f : β → α} :
    (f <$> m).Meets Q E s ↔ m.Meets (fun b => Q (f b)) E s := by
  unfold Meets
  simp only [Functor.map, EStateM.map]
  cases m s <;> rfl

@[simp] theorem meets_ofExcept {x : Except ε α} :
    (ofExcept x).Meets Q E s ↔ (∀ a, x = .ok a → Q a s) ∧ ∀ e, x = .error e → E e s := by
  cases x <;> simp [Meets, ofExcept]

@[simp] theorem meets_orThrow {e : ε} {x : Option α} :
    (orThrow e x).Meets Q E s ↔ (∀ a, x = some a → Q a s) ∧ (x = none → E e s) := by
  cases x <;> simp [Meets, orThrow]

@[simp] theorem meets_attempt {ε' : Type} {m : Call ε σ β} {Q : Except ε β → σ → Prop}
    {E : ε' → σ → Prop} :
    (attempt m : Call ε' σ (Except ε β)).Meets Q E s ↔
      m.Meets (fun b => Q (.ok b)) (fun e => Q (.error e)) s := by
  unfold Meets attempt
  cases m s <;> rfl

theorem meets_ite {c : Prop} [Decidable c] {m n : Call ε σ α} :
    (if c then m else n).Meets Q E s ↔ (c → m.Meets Q E s) ∧ (¬ c → n.Meets Q E s) := by
  split_ifs with h <;> simp [h]

@[simp] theorem meets_zoom {part : σ → τ} {put : τ → σ → σ} {m : Call ε τ α} :
    (zoom part put m).Meets Q E s ↔
      m.Meets (fun a u => Q a (put u s)) (fun e u => E e (put u s)) (part s) := by
  unfold Meets zoom
  cases m (part s) <;> rfl

@[simp] theorem meets_zoom? {e : ε} {part : σ → Option τ} {put : τ → σ → σ} {m : Call ε τ α} :
    (zoom? e part put m).Meets Q E s ↔ (part s = none → E e s) ∧
      ∀ u, part s = some u → m.Meets (fun a v => Q a (put v s)) (fun e v => E e (put v s)) u := by
  unfold Meets zoom?
  cases part s with
  | none => simp
  | some u => cases hm : m u <;> simp [hm]

end Call
end Calls
