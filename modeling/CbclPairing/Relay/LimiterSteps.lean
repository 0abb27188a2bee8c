import CbclPairing.Relay.Limiter
import CbclPairing.SlidingWindow

/-! What the limiter's calls do to the budget of one dimension: a check of it decides
as the sliding window does, a sweep refreshes it, and everything else keeps it. -/
namespace CbclPairing
open Codec Calls Tables SlidingWindow

def OperationPolicy.rule (policy : OperationPolicy) : Rule where
  limit := policy.limit.toNat
  window := policy.windowSeconds.toNat
  pause := cooldownSeconds
  horizon := 2 ^ 64

/-- The answer of the limiter to a verdict of the sliding window. -/
def decided : Verdict → Except LimiterError LimitDecision
  | .allowed remaining => .ok (.allowed remaining)
  | .paused retryAt => .ok (.cooldown (UInt64.ofNat retryAt))
  | .overflow => .error .timeOverflow

namespace Entry

variable {policy : OperationPolicy} {now : UInt64}

def budget (e : Entry) : Budget where
  attempts := e.attempts.map UInt64.toNat
  pausedUntil := e.cooldownUntil.map UInt64.toNat

theorem pruneAttempts_toNat (policy : OperationPolicy) (now : UInt64) (attempts : List UInt64) :
    (pruneAttempts policy.windowSeconds now attempts).map UInt64.toNat =
      policy.rule.prune now.toNat (attempts.map UInt64.toNat) := by
  unfold pruneAttempts Rule.prune
  rw [List.dropWhile_map]
  rfl

theorem attempt_budget (policy : OperationPolicy) (now : UInt64) (e : Entry)
    (hnone : e.cooldownUntil = none) :
    (e.attempt policy now).1 = decided (policy.rule.check now.toNat e.budget).1 ∧
      (e.attempt policy now).2.budget = (policy.rule.check now.toNat e.budget).2 := by
  have hrefresh : policy.rule.refresh now.toNat e.budget =
      { attempts := (pruneAttempts policy.windowSeconds now e.attempts).map UInt64.toNat } := by
    simp [Rule.refresh, budget, hnone, pruneAttempts_toNat]
  unfold Rule.check
  rw [hrefresh]
  unfold attempt
  generalize pruneAttempts policy.windowSeconds now e.attempts = kept
  by_cases hfull : policy.limit.toNat ≤ kept.length
  · have hfull' : policy.rule.limit ≤ (kept.map UInt64.toNat).length := by
      rwa [List.length_map]
    by_cases hroom : now.toNat + cooldownSeconds < 2 ^ 64
    · have hadd : checkedAdd64 now.toNat cooldownSeconds = some (now.toNat + cooldownSeconds) :=
        if_pos hroom
      have hretry : (UInt64.ofNat (now.toNat + cooldownSeconds)).toNat =
          now.toNat + cooldownSeconds := by
        rw [UInt64.toNat_ofNat']
        exact Nat.mod_eq_of_lt hroom
      have hjudge : policy.rule.judge now.toNat { attempts := kept.map UInt64.toNat } =
          (.paused (now.toNat + cooldownSeconds),
            ⟨kept.map UInt64.toNat, some (now.toNat + cooldownSeconds)⟩) := by
        unfold Rule.judge
        dsimp only
        rw [if_pos hfull', if_pos (show now.toNat + policy.rule.pause < policy.rule.horizon from
          hroom)]
        rfl
      simp only [hfull, if_true, hadd, hjudge, decided, budget, Option.map_some, hretry, and_self]
    · have hadd : checkedAdd64 now.toNat cooldownSeconds = none := if_neg hroom
      have hjudge : policy.rule.judge now.toNat { attempts := kept.map UInt64.toNat } =
          (.overflow, { attempts := kept.map UInt64.toNat }) := by
        unfold Rule.judge
        dsimp only
        rw [if_pos hfull', if_neg (show ¬ now.toNat + policy.rule.pause < policy.rule.horizon from
          hroom)]
      simp only [hfull, if_true, hadd, hjudge, decided, budget, hnone, Option.map_none, and_self]
  · have hfull' : ¬ policy.rule.limit ≤ (kept.map UInt64.toNat).length := by
      rwa [List.length_map]
    have hjudge : policy.rule.judge now.toNat { attempts := kept.map UInt64.toNat } =
        (.allowed (policy.limit.toNat - (kept.length + 1)),
          { attempts := kept.map UInt64.toNat ++ [now.toNat] }) := by
      unfold Rule.judge
      dsimp only
      rw [if_neg hfull', List.length_map]
      rfl
    simp only [hfull, if_false, hjudge, decided, budget, hnone, Option.map_none, List.map_append,
      List.map_singleton, List.length_append, List.length_singleton, and_self]

/-- One check of an entry decides as the sliding window does. -/
theorem check_budget (policy : OperationPolicy) (now : UInt64) (e : Entry) :
    (e.check policy now).1 = decided (policy.rule.check now.toNat e.budget).1 ∧
      (e.check policy now).2.budget = (policy.rule.check now.toNat e.budget).2 := by
  unfold check
  cases hcooldown : e.cooldownUntil with
  | none => exact attempt_budget policy now e hcooldown
  | some retryAt =>
    by_cases hnow : now < retryAt
    · have hlt : now.toNat < retryAt.toNat := UInt64.lt_iff_toNat_lt.mp hnow
      simp [hnow, Rule.check, Rule.refresh, Rule.judge, budget, hcooldown, hlt, decided]
    · have hnot : ¬ now.toNat < retryAt.toNat := mt UInt64.lt_iff_toNat_lt.mpr hnow
      have hcleared := attempt_budget policy now
        { e with cooldownUntil := none, attempts := [] } rfl
      have hsame : policy.rule.check now.toNat e.budget =
          policy.rule.check now.toNat { e with cooldownUntil := none, attempts := [] }.budget := by
        simp [Rule.check, Rule.refresh, budget, hcooldown, hnot, Rule.prune]
      simp only [if_neg hnow]
      rw [hsame]
      exact hcleared

/-- A sweep refreshes the budget of an entry. -/
theorem swept_budget (policy : OperationPolicy) (now : UInt64) (e : Entry) :
    (e.swept policy.windowSeconds now).elim {} budget =
      policy.rule.refresh now.toNat e.budget := by
  unfold swept
  cases hcooldown : e.cooldownUntil with
  | none =>
    have hpruned := pruneAttempts_toNat policy now e.attempts
    by_cases hnil : pruneAttempts policy.windowSeconds now e.attempts = []
    · rw [hnil] at hpruned
      simp [hnil, Rule.refresh, budget, hcooldown, ← hpruned]
    · simp [hnil, Rule.refresh, budget, hcooldown, hpruned]
  | some retryAt =>
    by_cases hnow : retryAt ≤ now
    · have hnot : ¬ now.toNat < retryAt.toNat := by
        have := UInt64.le_iff_toNat_le.mp hnow
        omega
      simp [hnow, Rule.refresh, budget, hcooldown, hnot]
    · have hlt : now.toNat < retryAt.toNat := by
        have := mt UInt64.le_iff_toNat_le.mpr hnow
        omega
      simp [hnow, Rule.refresh, budget, hcooldown, hlt]

end Entry

namespace Limiter

variable {s s' : Limiter} {d d' : Dimension} {now : UInt64}

/-- The budget of a dimension: an absent one has everything left. -/
def budget (s : Limiter) (d : Dimension) : Budget := (s.entries.lookup d).elim {} Entry.budget

def rule (s : Limiter) (d : Dimension) : Rule := (s.config.policies d.1).rule

/-- The latest second observed. -/
def clock (s : Limiter) : ℕ := s.lastNow.elim 0 UInt64.toNat

theorem effective_toNat (s : Limiter) (now : UInt64) :
    s.clock ≤ (s.effective now).toNat ∧ (s.observeTime now).clock = (s.effective now).toNat := by
  refine ⟨?_, rfl⟩
  unfold clock effective
  cases s.lastNow with
  | none => exact Nat.zero_le _
  | some last =>
    have hmax : max last now = if last ≤ now then now else last := rfl
    simp only [Option.elim_some, hmax]
    split_ifs with hle
    · exact UInt64.le_iff_toNat_le.mp hle
    · exact le_rfl

/-! ### Sweeps -/

/-- What a sweep leaves unchanged. -/
structure SweptKeeps (s s' : Limiter) : Prop where
  operatorKey : s'.operatorKey = s.operatorKey
  config : s'.config = s.config
  nextRecency : s'.nextRecency = s.nextRecency
  lastNow : s'.lastNow = s.lastNow

theorem sweepEntry_keeps (n : ℕ) (s : Limiter) (d : Dimension) :
    SweptKeeps s (sweepEntry now (n, s) d).2 := by
  unfold sweepEntry
  dsimp only
  cases s.entries.lookup d with
  | none => exact ⟨rfl, rfl, rfl, rfl⟩
  | some entry =>
    dsimp only
    cases entry.swept _ now <;> exact ⟨rfl, rfl, rfl, rfl⟩

theorem sweepEntry_lookup (n : ℕ) (s : Limiter) (d d' : Dimension) :
    (sweepEntry now (n, s) d).2.entries.lookup d' =
      if d' = d then
        (s.entries.lookup d).bind (Entry.swept (s.config.policies d.1).windowSeconds now)
      else s.entries.lookup d' := by
  unfold sweepEntry
  dsimp only
  cases hentry : s.entries.lookup d with
  | none =>
    split_ifs with hsame
    · rw [hsame, hentry]
      rfl
    · rfl
  | some entry =>
    dsimp only [Option.bind_some]
    cases hswept : entry.swept (s.config.policies d.1).windowSeconds now with
    | none => exact Table.lookup_erase_if _ _ _
    | some next => exact Table.lookup_insert_if _ _ _ _

/-- A sweep takes every dimension of its list once. -/
theorem sweepEntries_lookup {dimensions : List Dimension} (hnodup : dimensions.Nodup) (n : ℕ)
    (s : Limiter) : SweptKeeps s (dimensions.foldl (sweepEntry now) (n, s)).2 ∧ ∀ d,
      (dimensions.foldl (sweepEntry now) (n, s)).2.entries.lookup d =
        if d ∈ dimensions then
          (s.entries.lookup d).bind (Entry.swept (s.config.policies d.1).windowSeconds now)
        else s.entries.lookup d := by
  induction dimensions generalizing n s with
  | nil => exact ⟨⟨rfl, rfl, rfl, rfl⟩, fun d => rfl⟩
  | cons head dimensions ih =>
    obtain ⟨hnot, hrest⟩ := List.nodup_cons.mp hnodup
    have hkeeps : SweptKeeps s (sweepEntry now (n, s) head).2 := sweepEntry_keeps n s head
    obtain ⟨hkept, hlookup⟩ := ih hrest (sweepEntry now (n, s) head).1
      (sweepEntry now (n, s) head).2
    refine ⟨⟨hkept.operatorKey.trans hkeeps.operatorKey, hkept.config.trans hkeeps.config,
      hkept.nextRecency.trans hkeeps.nextRecency, hkept.lastNow.trans hkeeps.lastNow⟩, ?_⟩
    intro d
    rw [List.foldl_cons, hlookup, sweepEntry_lookup, hkeeps.config]
    by_cases hd : d = head
    · subst hd
      simp [hnot]
    · simp [hd]

theorem sweepInner_lookup (s : Limiter) (now : UInt64) (d : Dimension) :
    (s.sweepInner now).2.entries.lookup d =
      (s.entries.lookup d).bind (Entry.swept (s.config.policies d.1).windowSeconds now) := by
  unfold sweepInner
  rw [(sweepEntries_lookup (Finset.sort_nodup _ _) 0 s).2 d]
  split_ifs with hmem
  · rfl
  · have hnone : s.entries.lookup d = none := by
      rw [Finset.mem_sort, Finmap.mem_keys] at hmem
      exact Finmap.lookup_eq_none.mpr hmem
    rw [hnone]
    rfl

theorem sweepInner_keeps (s : Limiter) (now : UInt64) : SweptKeeps s (s.sweepInner now).2 :=
  (sweepEntries_lookup (Finset.sort_nodup _ _) 0 s).1

theorem sweptAt_keeps (s : Limiter) (now : UInt64) : SweptKeeps s (s.sweptAt now) := by
  have h := sweepInner_keeps s now
  exact ⟨h.operatorKey, h.config, h.nextRecency, h.lastNow⟩

/-- A sweep refreshes every budget. -/
theorem sweptAt_budget (s : Limiter) (now : UInt64) (d : Dimension) :
    (s.sweptAt now).budget d = (s.rule d).refresh now.toNat (s.budget d) := by
  have hlookup : (s.sweptAt now).entries.lookup d = _ := sweepInner_lookup s now d
  unfold budget
  rw [hlookup]
  cases s.entries.lookup d with
  | none => rfl
  | some entry => exact Entry.swept_budget _ now entry

/-! ### Admission -/

/-- The dimension that the capacity rule takes the place of. -/
def victim (s : Limiter) (d : Dimension) : Option Dimension :=
  if d ∈ s.entries then none
  else if s.config.entryCap ≤ Table.size s.entries then s.oldest.map Prod.snd
  else none

/-- Everything but the entries and the order of use. -/
structure AdmitKeeps (s s' : Limiter) : Prop where
  operatorKey : s'.operatorKey = s.operatorKey
  config : s'.config = s.config
  lastNow : s'.lastNow = s.lastNow

theorem evictLru_lookup (s : Limiter) (hd : s.oldest.map Prod.snd ≠ some d) :
    s.evictLru.entries.lookup d = s.entries.lookup d := by
  unfold evictLru
  cases holdest : s.oldest with
  | none => rfl
  | some victim =>
    rw [holdest] at hd
    dsimp only
    rw [Table.lookup_erase_if, if_neg]
    rintro rfl
    exact hd rfl

theorem evictLru_keeps (s : Limiter) :
    AdmitKeeps s s.evictLru ∧ s.evictLru.nextRecency = s.nextRecency := by
  unfold evictLru
  cases s.oldest <;> exact ⟨⟨rfl, rfl, rfl⟩, rfl⟩

/-- The limiter once a new dimension has its place. -/
def vacated (s : Limiter) : Limiter :=
  if s.config.entryCap ≤ Table.size s.entries then s.evictLru else s

theorem vacated_keeps (s : Limiter) :
    AdmitKeeps s s.vacated ∧ s.vacated.nextRecency = s.nextRecency := by
  unfold vacated
  split_ifs
  · exact evictLru_keeps s
  · exact ⟨⟨rfl, rfl, rfl⟩, rfl⟩

theorem vacated_lookup (hnew : s.entries.lookup d = none) (hd : s.victim d ≠ some d') :
    s.vacated.entries.lookup d' = s.entries.lookup d' := by
  unfold vacated
  unfold victim at hd
  rw [if_neg (Finmap.lookup_eq_none.mp hnew)] at hd
  split_ifs with hfull
  · rw [if_pos hfull] at hd
    exact evictLru_lookup s hd
  · rfl

/-- How an admission of one dimension goes. -/
inductive Admits (s : Limiter) (d : Dimension) (now : UInt64) :
    EStateM.Result LimiterError Limiter LimitDecision → Prop
  /-- The order of use has run out of numbers. -/
  | exhausted {s' : Limiter} : s.nextRecency = 0xffffffffffffffff → AdmitKeeps s s' →
      s'.nextRecency = s.nextRecency →
      (∀ d', s.victim d ≠ some d' → s'.entries.lookup d' = s.entries.lookup d') →
      Admits s d now (.error .timeOverflow s')
  | found {s' : Limiter} {entry : Entry} {recency : UInt64}
      {result : EStateM.Result LimiterError Limiter LimitDecision} :
      s.entries.lookup d = some entry → AdmitKeeps s s' →
      s'.nextRecency.toNat = s.nextRecency.toNat + 1 →
      s'.entries.lookup d =
        some (({ entry with recency }).check (s.config.policies d.1) now).2 →
      (∀ d', d' ≠ d → s'.entries.lookup d' = s.entries.lookup d') →
      Call.after result = s' → Call.verdict result =
        (({ entry with recency }).check (s.config.policies d.1) now).1 →
      Admits s d now result
  | entered {s' : Limiter} {recency : UInt64} : s.entries.lookup d = none → AdmitKeeps s s' →
      s'.nextRecency.toNat = s.nextRecency.toNat + 1 →
      s'.entries.lookup d = some ⟨[now], none, recency⟩ →
      (∀ d', d' ≠ d → s.victim d ≠ some d' → s'.entries.lookup d' = s.entries.lookup d') →
      Admits s d now (.ok (.allowed ((s.config.policies d.1).limit.toNat - 1)) s')

theorem checkedSucc64_eq_none {n : UInt64} : checkedSucc64 n = none ↔ n = 0xffffffffffffffff := by
  unfold checkedSucc64
  split_ifs with h <;> simp [h]

theorem decideEntry_eq (d : Dimension) (now : UInt64) (entry : Entry) (s : Limiter) :
    Call.verdict (decideEntry d now entry s) = (entry.check (s.config.policies d.1) now).1 ∧
      Call.after (decideEntry d now entry s) = { s with
        entries := s.entries.insert d (entry.check (s.config.policies d.1) now).2 } := by
  unfold decideEntry
  cases hdecided : (entry.check (s.config.policies d.1) now).1 <;> simp [hdecided]

/-- A dimension that is used again goes to the end of the order. -/
def touched (s : Limiter) (d : Dimension) (entry : Entry) (next : UInt64) : Limiter :=
  { s with
    recency := insert (s.nextRecency, d) (s.recency.erase (entry.recency, d))
    nextRecency := next
    entries := s.entries.insert d { entry with recency := s.nextRecency } }

theorem touch_ok (d : Dimension) (entry : Entry) {next : UInt64}
    (h : checkedSucc64 s.nextRecency = some next) :
    touch d entry s = .ok { entry with recency := s.nextRecency } (s.touched d entry next) := by
  have htake : takeRecency { s with recency := s.recency.erase (entry.recency, d) } =
      .ok s.nextRecency
        { s with recency := s.recency.erase (entry.recency, d), nextRecency := next } := by
    simp only [takeRecency, h]
  unfold touch
  rw [Call.run_bind (Call.run_modify _ s), Call.run_bind htake]
  rfl

theorem touch_error (d : Dimension) (entry : Entry) (h : checkedSucc64 s.nextRecency = none) :
    touch d entry s = .error .timeOverflow
      { s with recency := s.recency.erase (entry.recency, d) } := by
  unfold touch
  rw [Call.run_bind (Call.run_modify _ s)]
  apply Call.run_bind_error
  simp only [takeRecency, h]

/-- A dimension that is used again is decided on its entry. -/
theorem checkEntry_again {entry : Entry} {next : UInt64} (hentry : s.entries.lookup d = some entry)
    (hnext : checkedSucc64 s.nextRecency = some next) : checkEntry d now s =
      decideEntry d now { entry with recency := s.nextRecency } (s.touched d entry next) := by
  unfold checkEntry
  rw [Call.run_bind (Call.run_get s), hentry]
  exact Call.run_bind (touch_ok d entry hnext)

theorem checkEntry_found {entry : Entry} (hentry : s.entries.lookup d = some entry) :
    Admits s d now (checkEntry d now s) := by
  cases hnext : checkedSucc64 s.nextRecency with
  | none =>
    have hrun : checkEntry d now s =
        (touch d entry >>= fun entry => decideEntry d now entry) s := by
      unfold checkEntry
      rw [Call.run_bind (Call.run_get s), hentry]
    rw [hrun, Call.run_bind_error (touch_error d entry hnext)]
    exact .exhausted (checkedSucc64_eq_none.mp hnext) ⟨rfl, rfl, rfl⟩ rfl fun _ _ => rfl
  | some next =>
    rw [checkEntry_again hentry hnext]
    obtain ⟨hverdict, hafter⟩ := decideEntry_eq d now { entry with recency := s.nextRecency }
      (s.touched d entry next)
    have hkeeps : AdmitKeeps s (Call.after (decideEntry d now
        { entry with recency := s.nextRecency } (s.touched d entry next))) := by
      rw [hafter]
      exact ⟨rfl, rfl, rfl⟩
    refine .found hentry hkeeps ?_ ?_ ?_ rfl hverdict
    · rw [hafter]
      exact checkedSucc64_eq_some.mp hnext
    · rw [hafter]
      exact Finmap.lookup_insert _
    · intro d' hne
      rw [hafter]
      exact (Finmap.lookup_insert_of_ne _ hne).trans (Finmap.lookup_insert_of_ne _ hne)

/-- The limiter with an entry for the first attempt of a dimension. -/
def entered (s : Limiter) (d : Dimension) (now next : UInt64) : Limiter :=
  { s with
    nextRecency := next
    entries := s.entries.insert d { attempts := [now], cooldownUntil := none
                                    recency := s.nextRecency }
    recency := insert (s.nextRecency, d) s.recency }

/-- A new dimension runs out of numbers, or takes its place. -/
theorem checkEntry_new (hnew : s.entries.lookup d = none) : checkEntry d now s =
    match checkedSucc64 s.nextRecency with
    | none => .error .timeOverflow s.vacated
    | some next => .ok (.allowed ((s.config.policies d.1).limit.toNat - 1))
        (s.vacated.entered d now next) := by
  have hrun : checkEntry d now s = enter d now s := by
    unfold checkEntry
    rw [Call.run_bind (Call.run_get s), hnew]
  obtain ⟨hkeeps, hrecency⟩ := vacated_keeps s
  rw [hrun]
  unfold enter
  rw [Call.run_bind (Call.run_modify _ s)]
  change (takeRecency >>= _) s.vacated = _
  cases hnext : checkedSucc64 s.nextRecency with
  | none =>
    have htake : takeRecency s.vacated = .error .timeOverflow s.vacated := by
      simp only [takeRecency, hrecency, hnext]
    rw [Call.run_bind_error htake]
  | some next =>
    have htake : takeRecency s.vacated =
        .ok s.nextRecency { s.vacated with nextRecency := next } := by
      simp only [takeRecency, hrecency, hnext]
    rw [Call.run_bind htake, Call.run_bind (Call.run_modify _ _), Call.run_bind (Call.run_get _)]
    have hconfig : s.vacated.config.policies d.1 = s.config.policies d.1 := by rw [hkeeps.config]
    simp only [Call.run_pure, hconfig, entered, hrecency]

theorem checkEntry_entered (hnew : s.entries.lookup d = none) :
    Admits s d now (checkEntry d now s) := by
  obtain ⟨hkeeps, hrecency⟩ := vacated_keeps s
  rw [checkEntry_new hnew]
  cases hnext : checkedSucc64 s.nextRecency with
  | none =>
    exact .exhausted (checkedSucc64_eq_none.mp hnext) hkeeps hrecency
      fun _ hd => vacated_lookup hnew hd
  | some next =>
    refine .entered hnew ⟨hkeeps.operatorKey, hkeeps.config, hkeeps.lastNow⟩
      (checkedSucc64_eq_some.mp hnext) (Finmap.lookup_insert _) ?_
    intro d' hne hd
    exact (Finmap.lookup_insert_of_ne _ hne).trans (vacated_lookup hnew hd)

theorem checkEntry_admits (s : Limiter) (d : Dimension) (now : UInt64) :
    Admits s d now (checkEntry d now s) := by
  cases hentry : s.entries.lookup d with
  | none => exact checkEntry_entered hentry
  | some entry => exact checkEntry_found hentry

end Limiter
end CbclPairing
