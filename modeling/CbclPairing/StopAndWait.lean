import Mathlib.Data.List.Basic
import Mathlib.Tactic.SplitIfs

/-! Numbered messages with at most one outstanding: what one side issued, what its peer
acknowledged of it, and what it took from the peer. -/
namespace StopAndWait

/-! ### Labelled paths -/

section Paths

variable {σ τ ε φ : Type}

/-- A chain of steps with its events, in order. -/
inductive Path (step : σ → ε → σ → Prop) : σ → List ε → σ → Prop
  | nil (s : σ) : Path step s [] s
  | cons {s t u : σ} {e : ε} {es : List ε} : step s e t → Path step t es u → Path step s (e :: es) u

variable {step : σ → ε → σ → Prop} {s t u : σ} {es fs : List ε}

theorem Path.one {e : ε} (h : step s e t) : Path step s [e] t := .cons h (.nil t)

theorem Path.append (h : Path step s es t) (h' : Path step t fs u) : Path step s (es ++ fs) u := by
  induction h with
  | nil s => exact h'
  | cons hstep _ ih => exact .cons hstep (ih h')

/-- What every step keeps, a path keeps. -/
theorem Path.kept {I : σ → Prop} (hkept : ∀ s e t, step s e t → I s → I t) (h : Path step s es t)
    (hs : I s) : I t := by
  induction h with
  | nil s => exact hs
  | cons hstep _ ih => exact ih (hkept _ _ _ hstep hs)

/-- A path of one system is one of any system that simulates its steps. -/
theorem Path.map {step' : τ → φ → τ → Prop} {f : σ → τ} {g : ε → φ}
    (hstep : ∀ s e t, step s e t → step' (f s) (g e) (f t)) (h : Path step s es t) :
    Path step' (f s) (es.map g) (f t) := by
  induction h with
  | nil s => exact .nil (f s)
  | cons hfirst _ ih => exact .cons (hstep _ _ _ hfirst) ih

end Paths

/-! ### One side -/

inductive Event where
  | issue (n : ℕ)
  | acknowledge (n : ℕ)
  | take (n : ℕ)
  deriving DecidableEq

/-- The numbers issued and taken so far, and whether the last issued one is outstanding. -/
structure State where
  issued : ℕ
  taken : ℕ
  waiting : Bool
  deriving DecidableEq

inductive Step : State → Event → State → Prop
  | issue {s : State} : s.waiting = false →
      Step s (.issue s.issued) { s with issued := s.issued + 1, waiting := true }
  | acknowledge {s : State} {n : ℕ} : s.waiting = true → s.issued = n + 1 →
      Step s (.acknowledge n) { s with waiting := false }
  | take {s : State} : Step s (.take s.taken) { s with taken := s.taken + 1 }

namespace State

/-- Only a number that was issued is outstanding. -/
def Valid (s : State) : Prop := s.waiting = true → 0 < s.issued

def Outstanding (s : State) (n : ℕ) : Prop := s.waiting = true ∧ s.issued = n + 1

/-- How many numbers were acknowledged. -/
def acknowledged (s : State) : ℕ := if s.waiting then s.issued - 1 else s.issued

theorem acknowledged_le (s : State) : s.acknowledged ≤ s.issued ∧ s.issued ≤ s.acknowledged + 1 := by
  unfold acknowledged
  split_ifs <;> omega

/-- Every number is acknowledged, outstanding or not yet issued. -/
theorem outstanding_iff {s : State} (h : s.Valid) {n : ℕ} :
    s.Outstanding n ↔ s.acknowledged ≤ n ∧ n < s.issued := by
  unfold Outstanding acknowledged
  cases hwaiting : s.waiting with
  | false =>
    simp only [Bool.false_eq_true, false_and, if_false, false_iff]
    omega
  | true =>
    have hpos := h hwaiting
    simp only [true_and, if_true]
    omega

end State

namespace Event

def issue? : Event → Option ℕ
  | .issue n => some n
  | _ => none

def acknowledge? : Event → Option ℕ
  | .acknowledge n => some n
  | _ => none

def take? : Event → Option ℕ
  | .take n => some n
  | _ => none

end Event

variable {s t : State} {es : List Event}

theorem Step.valid {e : Event} (h : Step s e t) (hs : s.Valid) : t.Valid := by
  cases h with
  | issue => exact fun _ => Nat.succ_pos _
  | acknowledge => exact fun hwaiting => (by cases hwaiting)
  | take => exact hs

theorem Path.valid (h : Path Step s es t) (hs : s.Valid) : t.Valid :=
  h.kept (fun _ _ _ => Step.valid) hs

/-- A counter that each step advances past the number it notes, or leaves, notes the
whole range between its ends. -/
theorem Path.counts {σ ε : Type} {step : σ → ε → σ → Prop} {s t : σ} {es : List ε}
    {note : ε → Option ℕ} (counter : σ → ℕ)
    (hstep : ∀ s e t, step s e t →
      note e = some (counter s) ∧ counter t = counter s + 1 ∨ note e = none ∧ counter t = counter s)
    (h : Path step s es t) : counter s ≤ counter t ∧
      es.filterMap note = List.range' (counter s) (counter t - counter s) := by
  induction h with
  | nil s => simp
  | @cons s t u e es hfirst _ ih =>
    obtain ⟨hle, hnoted⟩ := ih
    obtain ⟨hnote, hcounter⟩ | ⟨hnote, hcounter⟩ := hstep _ _ _ hfirst
    · refine ⟨by omega, ?_⟩
      rw [List.filterMap_cons_some hnote, hnoted, hcounter]
      rw [show counter u - counter s = counter u - (counter s + 1) + 1 by omega, List.range'_succ]
    · refine ⟨by omega, ?_⟩
      rw [List.filterMap_cons_none hnote, hnoted, hcounter]

/-- Numbers are issued in order, none twice and none left out. -/
theorem issues_eq (h : Path Step s es t) : s.issued ≤ t.issued ∧
    es.filterMap Event.issue? = List.range' s.issued (t.issued - s.issued) := by
  refine h.counts State.issued ?_
  intro s e t hstep
  cases hstep with
  | issue => exact .inl ⟨rfl, rfl⟩
  | acknowledge => exact .inr ⟨rfl, rfl⟩
  | take => exact .inr ⟨rfl, rfl⟩

theorem takes_eq (h : Path Step s es t) : s.taken ≤ t.taken ∧
    es.filterMap Event.take? = List.range' s.taken (t.taken - s.taken) := by
  refine h.counts State.taken ?_
  intro s e t hstep
  cases hstep with
  | issue => exact .inr ⟨rfl, rfl⟩
  | acknowledge => exact .inr ⟨rfl, rfl⟩
  | take => exact .inl ⟨rfl, rfl⟩

/-- Numbers are acknowledged in order, none twice and none left out. -/
theorem acknowledges_eq (h : Path Step s es t) : s.acknowledged ≤ t.acknowledged ∧
    es.filterMap Event.acknowledge? =
      List.range' s.acknowledged (t.acknowledged - s.acknowledged) := by
  refine h.counts State.acknowledged ?_
  intro s e t hstep
  cases hstep with
  | issue hwaiting => exact .inr ⟨rfl, by simp [State.acknowledged, hwaiting]⟩
  | acknowledge hwaiting hissued =>
    refine .inl ⟨?_, ?_⟩ <;> simp [State.acknowledged, Event.acknowledge?, hwaiting, hissued]
  | take => exact .inr ⟨rfl, rfl⟩

end StopAndWait
