import CbclPairing.Calls
import Mathlib.Data.List.Induction

/-! Runs of a machine whose calls may fail and return effects. -/
namespace Runs
open Calls

variable {ε σ κ η : Type}

/-- The effects a call returned; a failed call returns none. -/
def effects : EStateM.Result ε σ (List η) → List η
  | .ok effects _ => effects
  | .error _ _ => []

@[simp] theorem effects_ok (effects : List η) (s : σ) :
    Runs.effects (.ok effects s : EStateM.Result ε σ (List η)) = effects := rfl

@[simp] theorem effects_error (e : ε) (s : σ) :
    Runs.effects (.error e s : EStateM.Result ε σ (List η)) = [] := rfl

variable (step : κ → Call ε σ (List η))

/-- The state after a list of calls. -/
def after (s : σ) (calls : List κ) : σ :=
  calls.foldl (fun s call => Call.after (step call s)) s

/-- Everything a list of calls returned, in order. -/
def released (s : σ) : List κ → List η
  | [] => []
  | call :: calls => effects (step call s) ++ released (Call.after (step call s)) calls

/-- Every call of a list with its verdict, in order. -/
def trace (s : σ) : List κ → List (κ × Except ε (List η))
  | [] => []
  | call :: calls => (call, Call.verdict (step call s)) :: trace (Call.after (step call s)) calls

@[simp] theorem after_nil (s : σ) : after step s [] = s := rfl

@[simp] theorem after_cons (s : σ) (call : κ) (calls : List κ) :
    after step s (call :: calls) = after step (Call.after (step call s)) calls := rfl

@[simp] theorem released_nil (s : σ) : released step s [] = [] := rfl

theorem after_append (s : σ) (calls more : List κ) :
    after step s (calls ++ more) = after step (after step s calls) more :=
  List.foldl_append

theorem after_concat (s : σ) (calls : List κ) (call : κ) :
    after step s (calls ++ [call]) = Call.after (step call (after step s calls)) :=
  after_append step s calls [call]

theorem released_append (s : σ) (calls more : List κ) :
    released step s (calls ++ more) =
      released step s calls ++ released step (after step s calls) more := by
  induction calls generalizing s with
  | nil => rfl
  | cons call calls ih => simp [released, ih]

theorem released_concat (s : σ) (calls : List κ) (call : κ) :
    released step s (calls ++ [call]) =
      released step s calls ++ effects (step call (after step s calls)) := by
  simp [released_append, released]

theorem trace_append (s : σ) (calls more : List κ) :
    trace step s (calls ++ more) =
      trace step s calls ++ trace step (after step s calls) more := by
  induction calls generalizing s with
  | nil => rfl
  | cons call calls ih => simp [trace, ih]

theorem trace_concat (s : σ) (calls : List κ) (call : κ) :
    trace step s (calls ++ [call]) =
      trace step s calls ++ [(call, Call.verdict (step call (after step s calls)))] := by
  simp [trace_append, trace]

/-- What is noted of the calls of a list, each read with the state it is made in. -/
def noted {α : Type} (note : κ → σ → Option α) (s : σ) : List κ → List α
  | [] => []
  | call :: calls => (note call s).toList ++ noted note (Call.after (step call s)) calls

theorem noted_append {α : Type} (note : κ → σ → Option α) (s : σ) (calls more : List κ) :
    noted step note s (calls ++ more) =
      noted step note s calls ++ noted step note (after step s calls) more := by
  induction calls generalizing s with
  | nil => rfl
  | cons call calls ih => simp [noted, ih]

theorem noted_concat {α : Type} (note : κ → σ → Option α) (s : σ) (calls : List κ) (call : κ) :
    noted step note s (calls ++ [call]) =
      noted step note s calls ++ (note call (after step s calls)).toList := by
  simp [noted_append, noted]

/-- Every call of a list meets a condition on the state it is made in. -/
def Along (C : κ → σ → Prop) (s : σ) : List κ → Prop
  | [] => True
  | call :: calls => C call s ∧ Along C (Call.after (step call s)) calls

/-- Some call of a list meets a condition on the calls before it and on the state it
is made in. -/
def Earlier (C : List κ → κ → σ → Prop) (s : σ) (calls : List κ) : Prop :=
  ∃ before call more, calls = before ++ call :: more ∧ C before call (after step s before)

variable {step} in
theorem Earlier.append {C : List κ → κ → σ → Prop} {s : σ} {calls : List κ}
    (h : Earlier step C s calls) (more : List κ) : Earlier step C s (calls ++ more) := by
  obtain ⟨before, call, rest, rfl, hcall⟩ := h
  exact ⟨before, call, rest ++ more, by simp, hcall⟩

theorem earlier_concat {C : List κ → κ → σ → Prop} {s : σ} {calls : List κ} {call : κ}
    (h : C calls call (after step s calls)) : Earlier step C s (calls ++ [call]) :=
  ⟨calls, call, [], rfl, h⟩

theorem earlier_concat_iff {C : List κ → κ → σ → Prop} {s : σ} {calls : List κ} {call : κ} :
    Earlier step C s (calls ++ [call]) ↔
      Earlier step C s calls ∨ C calls call (after step s calls) := by
  constructor
  · rintro ⟨before, call', more, hcalls, hcall⟩
    obtain rfl | ⟨rest, last, rfl⟩ := List.eq_nil_or_concat more
    · obtain ⟨rfl, hlast⟩ := List.append_inj' hcalls rfl
      obtain rfl := (List.cons.inj hlast).1
      exact .inr hcall
    · rw [List.concat_eq_append, ← List.cons_append, ← List.append_assoc] at hcalls
      obtain ⟨hbefore, -⟩ := List.append_inj' hcalls rfl
      exact .inl ⟨before, call', rest, hbefore, hcall⟩
  · rintro (h | h)
    · exact h.append [call]
    · exact earlier_concat step h

theorem along_append {C : κ → σ → Prop} {s : σ} {calls more : List κ} :
    Along step C s (calls ++ more) ↔
      Along step C s calls ∧ Along step C (after step s calls) more := by
  induction calls generalizing s with
  | nil => simp [Along]
  | cons call calls ih => simp [Along, ih, and_assoc]

theorem along_concat {C : κ → σ → Prop} {s : σ} {calls : List κ} {call : κ} :
    Along step C s (calls ++ [call]) ↔ Along step C s calls ∧ C call (after step s calls) := by
  simp [along_append, Along]

/-- A condition holds along a list when every call of it meets it where it is made. -/
theorem along_iff {C : κ → σ → Prop} {s : σ} {calls : List κ} :
    Along step C s calls ↔
      ∀ before call more, calls = before ++ call :: more → C call (after step s before) := by
  constructor
  · rintro h before call more rfl
    exact ((along_append step).mp h).2.1
  · intro h
    induction calls using List.reverseRecOn with
    | nil => trivial
    | append_singleton calls call ih =>
      refine (along_concat step).mpr ⟨ih fun before call' more hcalls => ?_, h calls call [] rfl⟩
      exact h before call' (more ++ [call]) (by simp [hcalls])

/-- What holds at the start and is kept by every call that meets the condition,
given the calls before, holds along every run of such calls. -/
theorem invariant_along {P : List κ → σ → Prop} {C : κ → σ → Prop} {s : σ} (hstart : P [] s)
    (hstep : ∀ calls call, P calls (after step s calls) → C call (after step s calls) →
      P (calls ++ [call]) (Call.after (step call (after step s calls)))) (calls : List κ)
    (hcalls : Along step C s calls) : P calls (after step s calls) := by
  induction calls using List.reverseRecOn with
  | nil => exact hstart
  | append_singleton calls call ih =>
    obtain ⟨hbefore, hcall⟩ := (along_concat step).mp hcalls
    rw [after_concat]
    exact hstep calls call (ih hbefore) hcall

theorem along_of_forall {C : κ → σ → Prop} (h : ∀ call s, C call s) (s : σ) (calls : List κ) :
    Along step C s calls := by
  induction calls generalizing s with
  | nil => trivial
  | cons call calls ih => exact ⟨h call s, ih _⟩

theorem invariant {P : List κ → σ → Prop} {s : σ} (hstart : P [] s)
    (hstep : ∀ calls call, P calls (after step s calls) →
      P (calls ++ [call]) (Call.after (step call (after step s calls)))) (calls : List κ) :
    P calls (after step s calls) :=
  invariant_along step hstart (fun calls call h _ => hstep calls call h) calls
    (along_of_forall step (C := fun _ _ => True) (fun _ _ => trivial) s calls)

/-- From the first state of a kind on, every call meets a condition. -/
def Since (T : σ → Prop) (C : κ → σ → Prop) (s : σ) (calls : List κ) : Prop :=
  ∀ before later call rest, calls = before ++ later ++ call :: rest → T (after step s before) →
    C call (after step s (before ++ later))

/-- What holds at the start and is kept by every call holds after every run. -/
theorem after_kept {I : σ → Prop} (hkept : ∀ call s, I s → I (Call.after (step call s))) {s : σ}
    (h : I s) (calls : List κ) : I (after step s calls) := by
  induction calls generalizing s with
  | nil => exact h
  | cons call calls ih => exact ih (hkept call s h)

/-- Conditions that agree where an invariant holds agree along its runs. -/
theorem along_congr {I : σ → Prop} {C D : κ → σ → Prop}
    (hkept : ∀ call s, I s → I (Call.after (step call s)))
    (hagree : ∀ call s, I s → (C call s ↔ D call s)) {s : σ} (h : I s) (calls : List κ) :
    Along step C s calls ↔ Along step D s calls := by
  induction calls generalizing s with
  | nil => exact Iff.rfl
  | cons call calls ih => exact and_congr (hagree call s h) (ih (hkept call s h))

theorem along_kept {I : σ → Prop} {C : κ → σ → Prop}
    (hkept : ∀ call s, I s → I (Call.after (step call s))) (hC : ∀ call s, I s → C call s) {s : σ}
    (h : I s) (calls : List κ) : Along step C s calls :=
  (along_congr step hkept (D := fun _ _ => True) (fun call s hs => iff_true_intro (hC call s hs))
    h calls).mpr (along_of_forall step (fun _ _ => trivial) s calls)

/-- Where no call leaves the kind, the condition is one on every call made in it. -/
theorem since_iff {I T : σ → Prop} {C : κ → σ → Prop}
    (hkept : ∀ call s, I s → I (Call.after (step call s)))
    (hstays : ∀ call s, I s → T s → T (Call.after (step call s))) {s : σ} (h : I s)
    {calls : List κ} :
    Since step T C s calls ↔ Along step (fun call s => T s → C call s) s calls := by
  rw [along_iff]
  constructor
  · intro hsince before call rest hcalls hT
    have hcall := hsince before [] call rest (by rw [hcalls, List.append_nil]) hT
    rwa [List.append_nil] at hcall
  · intro halong before later call rest hcalls hT
    refine halong (before ++ later) call rest hcalls ?_
    rw [after_append]
    have hboth := after_kept step (I := fun s => I s ∧ T s)
      (fun call s h => ⟨hkept call s h.1, hstays call s h.1 h.2⟩)
      ⟨after_kept step hkept h before, hT⟩ later
    exact hboth.2

end Runs
