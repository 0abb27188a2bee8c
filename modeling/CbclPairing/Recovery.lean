import CbclPairing.Runs

/-! Sessions that lose their live state at any time and are rebuilt from a
checkpoint they returned before. -/
namespace Recovery
open Calls

/-- A session, the checkpoints among its effects, the call that confirms one, and
what rebuilds a session from one. -/
structure Machine (ε σ κ η π ρ : Type) where
  call : κ → Call ε σ (List η)
  checkpoint? : η → Option π
  confirms : κ → π → Bool
  restore : ρ → π → Except ε σ
  down : ε

/-- The live session, if one is up, with the latest checkpoint returned and the
latest one confirmed. -/
structure World (σ π : Type) where
  live : Option σ
  emitted : Option π
  confirmed : Option π

/-- Which stored checkpoint a session is rebuilt from. -/
inductive Source where
  | emitted
  | confirmed

def Source.of {σ π : Type} (w : World σ π) : Source → Option π
  | .emitted => w.emitted
  | .confirmed => w.confirmed

inductive Act (κ ρ : Type) where
  | call (c : κ)
  | crash (r : ρ)

variable {ε σ κ η π ρ : Type}

def World.start (s : σ) : World σ π := ⟨some s, none, none⟩

namespace Machine

variable (m : Machine ε σ κ η π ρ)

/-- The stored checkpoints after a successful call. -/
def stored (c : κ) (effects : List η) (s : σ) (w : World σ π) : World σ π where
  live := some s
  emitted := ((effects.filterMap m.checkpoint?).getLast?).or w.emitted
  confirmed := if w.emitted.any (m.confirms c) then w.emitted else w.confirmed

def step (source : Source) : Act κ ρ → Call ε (World σ π) (List η)
  | .call c, w =>
    match w.live with
    | none => .error m.down w
    | some s =>
      match m.call c s with
      | .ok effects s' => .ok effects (m.stored c effects s' w)
      | .error e s' => .error e { w with live := some s' }
  | .crash r, w =>
    match source.of w with
    | none => .error m.down { w with live := none }
    | some k =>
      match m.restore r k with
      | .ok s => .ok [] { w with live := some s }
      | .error e => .error e { w with live := none }

section Steps

variable {m} {source : Source} {w : World σ π}

/-- A call that returns and confirms no checkpoint moves the live session only. -/
theorem stored_of_none {c : κ} {effects : List η} {s : σ}
    (heffects : ∀ x ∈ effects, m.checkpoint? x = none) (hc : ∀ k, m.confirms c k = false) :
    m.stored c effects s w = { w with live := some s } := by
  have hnone : effects.filterMap m.checkpoint? = [] := List.filterMap_eq_nil_iff.mpr heffects
  have hany : w.emitted.any (m.confirms c) = false := by
    cases w.emitted <;> simp [hc]
  rw [stored, hnone, hany]
  rfl

theorem step_call {c : κ} {s : σ} (h : w.live = some s) : m.step source (.call c) w =
    match m.call c s with
    | .ok effects s' => .ok effects (m.stored c effects s' w)
    | .error e s' => .error e { w with live := some s' } := by
  simp only [step, h]

theorem step_call_down {c : κ} (h : w.live = none) : m.step source (.call c) w = .error m.down w := by
  simp only [step, h]

theorem step_crash {r : ρ} {k : π} (h : source.of w = some k) : m.step source (.crash r) w =
    match m.restore r k with
    | .ok s => .ok [] { w with live := some s }
    | .error e => .error e { w with live := none } := by
  simp only [step, h]

theorem step_crash_lost {r : ρ} (h : source.of w = none) :
    m.step source (.crash r) w = .error m.down { w with live := none } := by
  simp only [step, h]

end Steps

variable {m}

/-- A condition on calls, as one on the acts of a run with crashes. -/
def Meets (C : κ → σ → Prop) : Act κ ρ → World σ π → Prop
  | .call c, w => ∀ s ∈ w.live, C c s
  | .crash _, _ => True

/-- Under a condition on its calls, a machine keeps a property of its sessions and
gives its checkpoints one that restores it. -/
structure Keeps (m : Machine ε σ κ η π ρ) (C : κ → σ → Prop) (P : σ → Prop) (Q : π → Prop) :
    Prop where
  ok : ∀ {c : κ} {s s' : σ} {effects : List η}, P s → C c s → m.call c s = .ok effects s' →
    P s' ∧ ∀ x ∈ effects, ∀ k ∈ m.checkpoint? x, Q k
  error : ∀ {c : κ} {s s' : σ} {e : ε}, P s → C c s → m.call c s = .error e s' → P s'
  restore : ∀ {r : ρ} {k : π} {s : σ}, Q k → m.restore r k = .ok s → P s

/-- The property of a world that a crash cannot break. -/
structure Holds (P : σ → Prop) (Q : π → Prop) (w : World σ π) : Prop where
  live : ∀ s ∈ w.live, P s
  emitted : ∀ k ∈ w.emitted, Q k
  confirmed : ∀ k ∈ w.confirmed, Q k

theorem Holds.source {P : σ → Prop} {Q : π → Prop} {w : World σ π} (h : Holds P Q w)
    (source : Source) : ∀ k ∈ source.of w, Q k := by
  cases source with
  | emitted => exact h.emitted
  | confirmed => exact h.confirmed

theorem Keeps.stored {C : κ → σ → Prop} {P : σ → Prop} {Q : π → Prop} {w : World σ π} {c : κ}
    {s s' : σ} {effects : List η} (hkeeps : m.Keeps C P Q) (h : Holds P Q w) (hs : P s)
    (hc : C c s) (hcall : m.call c s = .ok effects s') : Holds P Q (m.stored c effects s' w) := by
  obtain ⟨hs', heffects⟩ := hkeeps.ok hs hc hcall
  refine ⟨?_, ?_, ?_⟩
  · rintro t ht
    obtain rfl := Option.some.inj ht
    exact hs'
  · rintro k hk
    rcases Option.or_eq_some_iff.mp hk with hk | ⟨-, hk⟩
    · obtain ⟨x, hx, hxk⟩ := List.mem_filterMap.mp (List.mem_of_getLast? hk)
      exact heffects x hx k hxk
    · exact h.emitted k hk
  · rintro k hk
    unfold Machine.stored at hk
    dsimp only at hk
    split_ifs at hk
    · exact h.emitted k hk
    · exact h.confirmed k hk

theorem Keeps.step {C : κ → σ → Prop} {P : σ → Prop} {Q : π → Prop} {w : World σ π}
    {source : Source} {a : Act κ ρ} (hkeeps : m.Keeps C P Q) (h : Holds P Q w)
    (ha : Meets C a w) : Holds P Q (Call.after (m.step source a w)) := by
  have hnone : Holds P Q { w with live := none } := ⟨by simp, h.emitted, h.confirmed⟩
  cases a with
  | call c =>
    cases hlive : w.live with
    | none =>
      rw [step_call_down hlive]
      exact h
    | some s =>
      have hs := h.live s hlive
      have hc := ha s hlive
      rw [step_call hlive]
      cases hcall : m.call c s with
      | ok effects s' => exact hkeeps.stored h hs hc hcall
      | error e s' =>
        refine ⟨?_, h.emitted, h.confirmed⟩
        rintro t ht
        obtain rfl := Option.some.inj ht
        exact hkeeps.error hs hc hcall
  | crash r =>
    cases hsource : source.of w with
    | none =>
      rw [step_crash_lost hsource]
      exact hnone
    | some k =>
      rw [step_crash hsource]
      cases hrestore : m.restore r k with
      | ok s =>
        refine ⟨?_, h.emitted, h.confirmed⟩
        rintro t ht
        obtain rfl := Option.some.inj ht
        exact hkeeps.restore (h.source source k hsource) hrestore
      | error e => exact hnone

/-- What calls and restores keep holds in every world of every run. -/
theorem Keeps.run {C : κ → σ → Prop} {P : σ → Prop} {Q : π → Prop} {s : σ}
    (hkeeps : m.Keeps C P Q) (hs : P s) (source : Source) (acts : List (Act κ ρ))
    (hacts : Runs.Along (m.step source) (Meets C) (World.start s) acts) :
    Holds P Q (Runs.after (m.step source) (World.start s) acts) := by
  refine Runs.invariant_along (m.step source) (P := fun _ w => Holds P Q w) ?_ ?_ acts hacts
  · refine ⟨?_, by simp [World.start], by simp [World.start]⟩
    rintro t ht
    obtain rfl := Option.some.inj ht
    exact hs
  · intro calls a h ha
    exact hkeeps.step h ha

/-- Without a condition, what calls and restores keep holds in every world. -/
theorem Keeps.run_free {P : σ → Prop} {Q : π → Prop} {s : σ}
    (hkeeps : m.Keeps (fun _ _ => True) P Q) (hs : P s) (source : Source) (acts : List (Act κ ρ)) :
    Holds P Q (Runs.after (m.step source) (World.start s) acts) := by
  refine hkeeps.run hs source acts (Runs.along_of_forall _ ?_ _ _)
  intro a w
  cases a with
  | call c => exact fun _ _ => trivial
  | crash r => trivial

end Machine
end Recovery
