import Mathlib.Data.List.Sort

/-! Budgets of a sliding window with a pause: so many attempts in a window, and a
pause after one too many. A budget that is refreshed early, late or never decides
alike, and a pause that outlasts the window keeps every window within the limit. -/
namespace SlidingWindow

/-- So many attempts in a window, and how long a pause lasts. A pause that would end
at the horizon or later is not granted. -/
structure Rule where
  limit : ℕ
  window : ℕ
  pause : ℕ
  horizon : ℕ

/-- The attempts still counted, oldest first, and the end of a pause. -/
structure Budget where
  attempts : List ℕ := []
  pausedUntil : Option ℕ := none
  deriving DecidableEq

inductive Verdict where
  | allowed (remaining : ℕ)
  | paused (retryAt : ℕ)
  | overflow
  deriving DecidableEq

def Verdict.isAllowed : Verdict → Bool
  | .allowed _ => true
  | _ => false

namespace Rule

variable (r : Rule)

/-- Drop the attempts that left the window. -/
def prune (now : ℕ) (attempts : List ℕ) : List ℕ :=
  attempts.dropWhile fun t => r.window ≤ now - t

/-- What a budget amounts to at a time. -/
def refresh (now : ℕ) (b : Budget) : Budget :=
  match b.pausedUntil with
  | some retryAt => if now < retryAt then b else {}
  | none => { attempts := r.prune now b.attempts }

/-- The verdict of a budget that was just refreshed. -/
def judge (now : ℕ) (b : Budget) : Verdict × Budget :=
  match b.pausedUntil with
  | some retryAt => (.paused retryAt, b)
  | none =>
    if r.limit ≤ b.attempts.length then
      if now + r.pause < r.horizon then
        (.paused (now + r.pause), { b with pausedUntil := some (now + r.pause) })
      else (.overflow, b)
    else (.allowed (r.limit - (b.attempts.length + 1)), { attempts := b.attempts ++ [now] })

/-- One attempt at a time. -/
def check (now : ℕ) (b : Budget) : Verdict × Budget := r.judge now (r.refresh now b)

variable {r} {now later clock : ℕ} {b c : Budget}

/-! ### Refreshing -/

theorem dropWhile_dropWhile {α : Type} {p q : α → Bool} (hpq : ∀ a, p a = true → q a = true)
    (l : List α) : (l.dropWhile p).dropWhile q = l.dropWhile q := by
  induction l with
  | nil => rfl
  | cons a l ih =>
    rw [List.dropWhile_cons (p := p), List.dropWhile_cons (p := q)]
    by_cases hp : p a = true
    · rw [if_pos hp, if_pos (hpq a hp), ih]
    · rw [if_neg hp, List.dropWhile_cons]

theorem prune_prune (h : now ≤ later) (attempts : List ℕ) :
    r.prune later (r.prune now attempts) = r.prune later attempts := by
  apply dropWhile_dropWhile
  intro t ht
  rw [decide_eq_true_eq] at ht ⊢
  omega

/-- Refreshing earlier as well makes no difference. -/
theorem refresh_refresh (h : now ≤ later) (b : Budget) :
    r.refresh later (r.refresh now b) = r.refresh later b := by
  cases hpaused : b.pausedUntil with
  | none => simp [refresh, hpaused, prune_prune h]
  | some retryAt =>
    by_cases hnow : now < retryAt
    · simp [refresh, hpaused, hnow]
    · have hlater : ¬ later < retryAt := by omega
      simp [refresh, hpaused, hnow, hlater, prune]

/-- Two budgets that amount to the same from a time on. -/
def Agree (r : Rule) (clock : ℕ) (b c : Budget) : Prop :=
  ∀ now, clock ≤ now → r.refresh now b = r.refresh now c

theorem Agree.refl (r : Rule) (clock : ℕ) (b : Budget) : r.Agree clock b b := fun _ _ => rfl

theorem Agree.mono (h : r.Agree clock b c) (hle : clock ≤ later) : r.Agree later b c :=
  fun now hnow => h now (hle.trans hnow)

theorem Agree.refreshed (h : r.Agree clock b c) (hle : clock ≤ now) :
    r.Agree now (r.refresh now b) c := by
  intro later hlater
  rw [refresh_refresh hlater, h later (hle.trans hlater)]

/-- Budgets that agree decide alike and are equal afterwards. -/
theorem Agree.check (h : r.Agree clock b c) (hle : clock ≤ now) :
    r.check now b = r.check now c := by
  unfold Rule.check
  rw [h now hle]

/-- The first attempt is allowed. -/
theorem check_fresh (hlimit : 0 < r.limit) :
    r.check now {} = (.allowed (r.limit - 1), { attempts := [now] }) := by
  simp [check, refresh, prune, judge, hlimit.ne']

/-! ### Runs -/

/-- The attempts of a run with their verdicts. -/
def verdicts (r : Rule) (b : Budget) : List ℕ → List (ℕ × Verdict)
  | [] => []
  | now :: times => (now, (r.check now b).1) :: r.verdicts (r.check now b).2 times

/-- The budget a run of attempts leaves. -/
def spent (r : Rule) (b : Budget) (times : List ℕ) : Budget :=
  times.foldl (fun b now => (r.check now b).2) b

@[simp] theorem verdicts_nil (b : Budget) : r.verdicts b [] = [] := rfl

@[simp] theorem verdicts_cons (b : Budget) (now : ℕ) (times : List ℕ) :
    r.verdicts b (now :: times) =
      (now, (r.check now b).1) :: r.verdicts (r.check now b).2 times := rfl

theorem verdicts_append (b : Budget) (times more : List ℕ) :
    r.verdicts b (times ++ more) = r.verdicts b times ++ r.verdicts (r.spent b times) more := by
  induction times generalizing b with
  | nil => rfl
  | cons now times ih => simp [spent, ih]

theorem spent_concat (b : Budget) (times : List ℕ) (now : ℕ) :
    r.spent b (times ++ [now]) = (r.check now (r.spent b times)).2 := by
  simp [spent]

/-- The times at which a run was allowed an attempt. -/
def allowed (entries : List (ℕ × Verdict)) : List ℕ :=
  (entries.filter fun entry => entry.2.isAllowed).map Prod.fst

@[simp] theorem allowed_nil : allowed [] = [] := rfl

@[simp] theorem allowed_cons (entry : ℕ × Verdict) (entries : List (ℕ × Verdict)) :
    allowed (entry :: entries) =
      (if entry.2.isAllowed then [entry.1] else []) ++ allowed entries := by
  unfold allowed
  split_ifs with h <;> simp [h]

@[simp] theorem allowed_append (entries more : List (ℕ × Verdict)) :
    allowed (entries ++ more) = allowed entries ++ allowed more := by
  simp [allowed]

/-- The allowed attempts of one window. -/
def inWindow (window start : ℕ) (times : List ℕ) : List ℕ :=
  times.filter fun t => start ≤ t ∧ t < start + window

/-- Every window holds at most as many attempts as the limit. -/
def Bounded (r : Rule) (times : List ℕ) : Prop :=
  ∀ start, (inWindow r.window start times).length ≤ r.limit

/-- What a budget knows of the attempts it has allowed: all of those still in the
window, and that a pause outlasts every window they are in. -/
structure Knows (r : Rule) (clock : ℕ) (times : List ℕ) (b : Budget) : Prop where
  past : ∀ t ∈ times, t ≤ clock
  sorted : b.attempts.Pairwise (· ≤ ·)
  recent : ∀ t ∈ b.attempts, t ≤ clock
  counted : b.pausedUntil = none → ∀ now, clock ≤ now →
    times.filter (fun t => now < t + r.window) = b.attempts.filter (fun t => now < t + r.window)
  paused : ∀ retryAt ∈ b.pausedUntil, ∀ t ∈ times, t + r.window ≤ retryAt
  bounded : Bounded r times

/-- Pruning a sorted list keeps what is still in the window. -/
theorem prune_eq_filter {attempts : List ℕ} (h : attempts.Pairwise (· ≤ ·)) (now : ℕ)
    (hpos : 0 < r.window) :
    r.prune now attempts = attempts.filter fun t => now < t + r.window := by
  induction attempts with
  | nil => rfl
  | cons t attempts ih =>
    obtain ⟨hle, hrest⟩ := List.pairwise_cons.mp h
    unfold prune
    rw [List.dropWhile_cons]
    by_cases hout : r.window ≤ now - t
    · rw [if_pos (by simpa using hout), List.filter_cons_of_neg (by simp; omega)]
      exact ih hrest
    · have hkept : ∀ s ∈ t :: attempts, decide (now < s + r.window) = true := by
        intro s hs
        rw [decide_eq_true_eq]
        obtain rfl | hs := List.mem_cons.mp hs
        · omega
        · have := hle s hs
          omega
      rw [if_neg (by simpa using hout), List.filter_eq_self.mpr hkept]

theorem Knows.refresh {times : List ℕ} (h : Knows r clock times b) (hle : clock ≤ now)
    (hpos : 0 < r.window) : Knows r now times (r.refresh now b) := by
  have hpast : ∀ t ∈ times, t ≤ now := fun t ht => (h.past t ht).trans hle
  unfold Rule.refresh
  cases hpaused : b.pausedUntil with
  | none =>
    have hsub : (r.prune now b.attempts).Sublist b.attempts := List.dropWhile_sublist _
    refine ⟨hpast, h.sorted.sublist hsub, ?_, ?_, (by intros; contradiction), h.bounded⟩
    · intro t ht
      exact (h.recent t (hsub.subset ht)).trans hle
    · intro _ later hlater
      rw [h.counted hpaused later (hle.trans hlater)]
      dsimp only
      rw [prune_eq_filter h.sorted now hpos, List.filter_filter]
      apply List.filter_congr
      intro t _
      rw [← Bool.decide_and, decide_eq_decide]
      omega
  | some retryAt =>
    dsimp only
    split_ifs with hnow
    · refine ⟨hpast, h.sorted, fun t ht => (h.recent t ht).trans hle, ?_, h.paused, h.bounded⟩
      intro hnone
      rw [hpaused] at hnone
      cases hnone
    · refine ⟨hpast, List.Pairwise.nil, (by intros; contradiction), ?_, (by intros; contradiction),
        h.bounded⟩
      intro _ later hlater
      rw [List.filter_nil, List.filter_eq_nil_iff]
      intro t ht
      have hended := h.paused retryAt hpaused t ht
      simp only [decide_eq_true_eq]
      omega

/-- One more allowed attempt keeps every window within the limit. -/
theorem bounded_concat {times : List ℕ} (h : Bounded r times)
    (hroom : (times.filter fun t => now < t + r.window).length < r.limit) :
    Bounded r (times ++ [now]) := by
  intro start
  have hbefore := h start
  unfold inWindow at hbefore ⊢
  rw [List.filter_append, List.length_append]
  by_cases hin : start ≤ now ∧ now < start + r.window
  · have hsub : (times.filter fun t => start ≤ t ∧ t < start + r.window).length ≤
        (times.filter fun t => now < t + r.window).length := by
      apply List.Sublist.length_le
      apply List.monotone_filter_right
      intro t ht
      rw [decide_eq_true_eq] at ht ⊢
      omega
    have hone : ([now].filter fun t => start ≤ t ∧ t < start + r.window).length ≤ 1 :=
      List.length_filter_le _ _
    omega
  · rw [List.filter_singleton]
    simp only [hin, decide_false, cond_false, List.length_nil]
    omega

/-- What the verdict does to the knowledge of a refreshed budget. -/
theorem Knows.judge {times : List ℕ} (h : Knows r now times b) (hpause : r.window ≤ r.pause) :
    Knows r now (times ++ if (r.judge now b).1.isAllowed then [now] else [])
      (r.judge now b).2 := by
  obtain ⟨attempts, pausedUntil⟩ := b
  cases pausedUntil with
  | some retryAt => simpa [Rule.judge, Verdict.isAllowed] using h
  | none =>
    by_cases hfull : r.limit ≤ attempts.length
    · by_cases hhorizon : now + r.pause < r.horizon
      · simp only [Rule.judge, if_pos hfull, if_pos hhorizon, Verdict.isAllowed,
          Bool.false_eq_true, if_false, List.append_nil]
        refine ⟨h.past, h.sorted, h.recent, (by intros; contradiction), ?_, h.bounded⟩
        intro retryAt hretry t ht
        obtain rfl := Option.some.inj hretry
        have := h.past t ht
        omega
      · simpa [Rule.judge, hfull, hhorizon, Verdict.isAllowed] using h
    · simp only [Rule.judge, if_neg hfull, Verdict.isAllowed, if_true]
      have hlast : ∀ {l : List ℕ}, (∀ t ∈ l, t ≤ now) → ∀ t ∈ l ++ [now], t ≤ now := by
        intro l hl t ht
        obtain ht | ht := List.mem_append.mp ht
        · exact hl t ht
        · exact (List.mem_singleton.mp ht).le
      refine ⟨hlast h.past, ?_, hlast h.recent, ?_, (by intros; contradiction), ?_⟩
      · rw [List.pairwise_append]
        refine ⟨h.sorted, List.pairwise_singleton _ _, ?_⟩
        intro t ht u hu
        obtain rfl := List.mem_singleton.mp hu
        exact h.recent t ht
      · intro _ later hlater
        rw [List.filter_append, List.filter_append, h.counted rfl later hlater]
      · apply bounded_concat h.bounded
        rw [h.counted rfl now le_rfl]
        exact (List.length_filter_le _ _).trans_lt (Nat.lt_of_not_le hfull)

theorem Knows.verdicts {times : List ℕ} (h : Knows r clock times b) (hpos : 0 < r.window)
    (hpause : r.window ≤ r.pause) {more : List ℕ} (hsorted : more.Pairwise (· ≤ ·))
    (hlater : ∀ t ∈ more, clock ≤ t) : Bounded r (times ++ allowed (r.verdicts b more)) := by
  induction more generalizing clock times b with
  | nil => simpa using h.bounded
  | cons now more ih =>
    obtain ⟨hnow, hmore⟩ := List.pairwise_cons.mp hsorted
    have hnext := (h.refresh (hlater now List.mem_cons_self) hpos).judge hpause
    have hrun := ih hnext hmore hnow
    rw [List.append_assoc] at hrun
    rw [verdicts_cons, allowed_cons]
    exact hrun

/-- A pause that outlasts the window keeps every window of a run within the limit. -/
theorem bounded_verdicts (hpos : 0 < r.window) (hpause : r.window ≤ r.pause) {times : List ℕ}
    (hsorted : times.Pairwise (· ≤ ·)) : Bounded r (allowed (r.verdicts {} times)) := by
  have hstart : Knows r 0 [] {} :=
    ⟨(by intros; contradiction), List.Pairwise.nil, (by intros; contradiction), fun _ _ _ => rfl,
    (by intros; contradiction), fun _ => Nat.zero_le _⟩
  exact hstart.verdicts hpos hpause hsorted fun _ _ => Nat.zero_le _

/-- Attempts at one time are allowed up to the limit, and then the budget pauses. -/
theorem verdicts_burst (hpos : 0 < r.window) {n : ℕ} (hn : n ≤ r.limit) :
    r.spent {} (List.replicate n 0) = { attempts := List.replicate n 0 } ∧
      allowed (r.verdicts {} (List.replicate n 0)) = List.replicate n 0 := by
  induction n with
  | zero => exact ⟨rfl, rfl⟩
  | succ n ih =>
    obtain ⟨hspent, hallowed⟩ := ih (by omega)
    have hkept : r.prune 0 (List.replicate n 0) = List.replicate n 0 := by
      rw [prune_eq_filter (List.pairwise_replicate.mpr (.inr le_rfl)) 0 hpos,
        List.filter_eq_self]
      intro t _
      rw [decide_eq_true_eq]
      omega
    have hroom : ¬ r.limit ≤ n := by omega
    have hcheck : r.check 0 { attempts := List.replicate n 0 } =
        (.allowed (r.limit - (n + 1)), { attempts := List.replicate n 0 ++ [0] }) := by
      simp [check, refresh, judge, hkept, hroom]
    rw [List.replicate_succ', spent_concat, verdicts_append, allowed_append, hspent, hallowed]
    simp [hcheck, Verdict.isAllowed]

/-- A pause shorter than the window lets one attempt too many into it. -/
theorem verdicts_overrun (hlimit : 0 < r.limit) (hhorizon : r.pause < r.horizon)
    (hpause : r.pause < r.window) :
    ¬ Bounded r (allowed (r.verdicts {} (List.replicate (r.limit + 1) 0 ++ [r.pause]))) := by
  obtain ⟨hspent, hallowed⟩ := verdicts_burst (r := r) (by omega) le_rfl
  have hkept : r.prune 0 (List.replicate r.limit 0) = List.replicate r.limit 0 := by
    rw [prune_eq_filter (List.pairwise_replicate.mpr (.inr le_rfl)) 0 (by omega),
      List.filter_eq_self]
    intro t _
    rw [decide_eq_true_eq]
    omega
  have hfull : r.check 0 { attempts := List.replicate r.limit 0 } =
      (.paused r.pause, ⟨List.replicate r.limit 0, some r.pause⟩) := by
    simp [check, refresh, judge, hkept, hhorizon]
  have hagain : r.check r.pause ⟨List.replicate r.limit 0, some r.pause⟩ =
      (.allowed (r.limit - 1), { attempts := [r.pause] }) := by
    have hroom : ¬ r.limit ≤ 0 := by omega
    simp [check, refresh, judge, hlimit.ne']
  have hrun : allowed (r.verdicts {} (List.replicate (r.limit + 1) 0 ++ [r.pause])) =
      List.replicate r.limit 0 ++ [r.pause] := by
    rw [List.replicate_succ', List.append_assoc, verdicts_append, allowed_append, hspent,
      hallowed]
    simp [hfull, hagain, Verdict.isAllowed]
  intro hbounded
  have hwindow := hbounded 0
  rw [hrun, inWindow, List.filter_eq_self.mpr] at hwindow
  · rw [List.length_append, List.length_replicate, List.length_singleton] at hwindow
    omega
  · intro t ht
    rw [decide_eq_true_eq]
    obtain ht | ht := List.mem_append.mp ht
    · have := (List.mem_replicate.mp ht).2
      omega
    · have := List.mem_singleton.mp ht
      omega

end Rule
end SlidingWindow
