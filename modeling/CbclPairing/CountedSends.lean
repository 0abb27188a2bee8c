import CbclPairing.Runs
import Mathlib.Data.List.Range

/-! Machines that number what they send. Each call sends nothing, or one effect under the
number of effects sent before it. -/
namespace CountedSends
open Calls Runs

variable {ε σ κ η : Type}

/-- One call of a machine that numbers its effects. -/
def Counted (step : κ → Call ε σ (List η)) (sent : σ → ℕ) (number : η → Option ℕ) : Prop :=
  ∀ call s,
    (effects (step call s) = [] ∧ sent (Call.after (step call s)) = sent s) ∨
      ∃ effect, effects (step call s) = [effect] ∧ number effect = some (sent s) ∧
        sent (Call.after (step call s)) = sent s + 1

variable {step : κ → Call ε σ (List η)} {sent : σ → ℕ} {number : η → Option ℕ}

theorem sent_after (h : Counted step sent number) (s : σ) (calls : List κ) :
    sent (after step s calls) = sent s + (released step s calls).length := by
  induction calls generalizing s with
  | nil => rfl
  | cons call calls ih =>
    rw [after_cons, ih, released, List.length_append]
    rcases h call s with ⟨hnone, hsent⟩ | ⟨effect, hone, -, hsent⟩
    · rw [hnone, hsent, List.length_nil]
      omega
    · rw [hone, hsent, List.length_singleton]
      omega

/-- The numbers of a run follow on the number of effects sent before it. -/
theorem numbers (h : Counted step sent number) (s : σ) (calls : List κ) :
    (released step s calls).map number =
      (List.range' (sent s) (released step s calls).length).map some := by
  induction calls generalizing s with
  | nil => rfl
  | cons call calls ih =>
    rw [released, List.map_append, ih, List.length_append]
    rcases h call s with ⟨hnone, hsent⟩ | ⟨effect, hone, hnumber, hsent⟩
    · rw [hnone, hsent, List.length_nil, Nat.zero_add]
      rfl
    · rw [hone, hsent, List.length_singleton, Nat.add_comm 1, List.range'_succ, List.map_cons,
        List.map_cons, hnumber]
      rfl

theorem number_lt (h : Counted step sent number) {s : σ} {calls : List κ} {effect : η}
    (hmem : effect ∈ released step s calls) {n : ℕ} (hn : number effect = some n) :
    n < sent (after step s calls) := by
  have hnumber := List.mem_map_of_mem (f := number) hmem
  rw [numbers h, hn] at hnumber
  simp only [List.mem_map, List.mem_range', Option.some.injEq, exists_eq_right] at hnumber
  rw [sent_after h]
  omega

/-- Where the numbers run out, nothing is sent any more. -/
theorem effects_of_full (h : Counted step sent number) {limit : ℕ} (hlimit : ∀ s, sent s ≤ limit)
    {s : σ} (hfull : sent s = limit) (call : κ) : effects (step call s) = [] := by
  rcases h call s with ⟨hnone, -⟩ | ⟨effect, -, -, hsent⟩
  · exact hnone
  · have hle := hlimit (Call.after (step call s))
    omega

/-- An effect under the last number is the last one, however the run goes on. -/
theorem effects_of_last (h : Counted step sent number) {limit : ℕ} (hlimit : ∀ s, sent s ≤ limit)
    {s : σ} {before : List κ} {effect : η} (hmem : effect ∈ released step s before)
    (hlast : number effect = some (limit - 1)) (later : List κ) (call : κ) :
    effects (step call (after step s (before ++ later))) = [] := by
  apply effects_of_full h hlimit
  have hsent := number_lt h hmem hlast
  have hle := hlimit (after step s (before ++ later))
  rw [after_append, sent_after h] at hle ⊢
  omega

end CountedSends
