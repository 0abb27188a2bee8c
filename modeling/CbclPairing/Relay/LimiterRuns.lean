import CbclPairing.Relay.LimiterSteps

/-! Runs of the shared limiter: every dimension that keeps its place is decided as a
limiter of its own would, and when its windows hold no more than its limit. -/
namespace CbclPairing
open Codec Calls Tables SlidingWindow

inductive LimiterCall where
  | check (operation : Operation) (address : Bytes) (now : UInt64)
  | sweep (now : UInt64)
  | sweepIfDue (now : UInt64)

def LimiterCall.isCheck : LimiterCall → Bool
  | .check .. => true
  | _ => false

namespace Limiter

variable {s s' : Limiter} {d d' : Dimension} {now : UInt64} {b : Budget}

/-! ### One admission -/

/-- No order numbers are left. -/
def Exhausted (s : Limiter) : Prop := s.nextRecency = 0xffffffffffffffff

theorem not_exhausted_of_lt (h : s.nextRecency.toNat < 2 ^ 64 - 1) : ¬ s.Exhausted := by
  intro hfull
  rw [hfull] at h
  exact absurd h (by decide)

section Admission

variable {result : EStateM.Result LimiterError Limiter LimitDecision}

theorem Admits.keeps (h : Admits s d now result) : AdmitKeeps s (Call.after result) := by
  cases h with
  | exhausted _ hkeeps => exact hkeeps
  | found _ hkeeps _ _ _ hafter => exact hafter ▸ hkeeps
  | entered _ hkeeps => exact hkeeps

/-- An admission decides as the sliding window does. -/
theorem Admits.self (h : Admits s d now result) (hroom : ¬ s.Exhausted)
    (hlimit : 0 < (s.rule d).limit) :
    Call.verdict result = decided ((s.rule d).check now.toNat (s.budget d)).1 ∧
      (Call.after result).budget d = ((s.rule d).check now.toNat (s.budget d)).2 ∧
      (Call.after result).nextRecency.toNat = s.nextRecency.toNat + 1 := by
  cases h with
  | exhausted hfull => exact absurd hfull hroom
  | @found s' entry recency result hentry _ hnext hself _ hafter hverdict =>
    obtain ⟨hdecided, hbudget⟩ := Entry.check_budget (s.config.policies d.1) now
      { entry with recency }
    have hstart : s.budget d = { entry with recency }.budget := by
      unfold budget
      rw [hentry]
      rfl
    rw [hstart, hafter, hverdict]
    refine ⟨hdecided, ?_, hnext⟩
    unfold budget
    rw [hself]
    exact hbudget
  | @entered s' recency hnew _ hnext hself _ =>
    have hstart : s.budget d = {} := by
      unfold budget
      rw [hnew]
      rfl
    rw [hstart, Rule.check_fresh hlimit]
    refine ⟨rfl, ?_, hnext⟩
    show s'.budget d = _
    unfold budget
    rw [hself]
    rfl

theorem Admits.other (h : Admits s d now result) (hne : d' ≠ d) (hd : s.victim d ≠ some d') :
    (Call.after result).budget d' = s.budget d' := by
  have hlookup : (Call.after result).entries.lookup d' = s.entries.lookup d' := by
    cases h with
    | exhausted _ _ _ hothers => exact hothers d' hd
    | found _ _ _ _ hothers hafter => exact hafter ▸ hothers d' hne
    | entered _ _ _ _ hothers => exact hothers d' hne hd
  unfold budget
  rw [hlookup]

theorem Admits.full (h : Admits s d now result) (hfull : s.Exhausted) :
    Call.verdict result = .error .timeOverflow ∧ (Call.after result).Exhausted := by
  have hlast : s.nextRecency.toNat = 2 ^ 64 - 1 := by
    rw [hfull]
    decide
  cases h with
  | exhausted _ _ hnext => exact ⟨rfl, hnext.trans hfull⟩
  | @found s' _ _ _ _ _ hnext =>
    have := s'.nextRecency.toNat_lt
    omega
  | @entered s' _ _ _ hnext =>
    have := s'.nextRecency.toNat_lt
    omega

/-- An admission takes at most one order number. -/
theorem Admits.nextRecency_le (h : Admits s d now result) :
    (Call.after result).nextRecency.toNat ≤ s.nextRecency.toNat + 1 := by
  cases h with
  | exhausted _ _ hnext =>
    show _ ≤ _
    rw [Call.after_error, hnext]
    omega
  | found _ _ hnext _ _ hafter => exact hafter ▸ hnext.le
  | entered _ _ hnext => exact hnext.le

end Admission

/-! ### The reference -/

/-- A limiter that is fed the checks of one dimension only, at times that were already
observed, and never sweeps. -/
def alone (s : Limiter) (d : Dimension) : List UInt64 → List (Except LimiterError LimitDecision)
  | [] => []
  | now :: times => Call.verdict (checkEntry d now s) :: (Call.after (checkEntry d now s)).alone d times

theorem alone_eq (hlimit : 0 < (s.rule d).limit) (times : List UInt64)
    (hroom : s.nextRecency.toNat + times.length < 2 ^ 64) :
    s.alone d times = ((s.rule d).verdicts (s.budget d) (times.map UInt64.toNat)).map
      fun entry => decided entry.2 := by
  induction times generalizing s with
  | nil => rfl
  | cons now times ih =>
    rw [List.length_cons] at hroom
    have hadmits := checkEntry_admits s d now
    have hkeeps := hadmits.keeps
    obtain ⟨hverdict, hbudget, hnext⟩ :=
      hadmits.self (not_exhausted_of_lt (by omega)) hlimit
    have hrule : (Call.after (checkEntry d now s)).rule d = s.rule d := by
      unfold rule
      rw [hkeeps.config]
    have hrest := ih (s := Call.after (checkEntry d now s)) (by rw [hrule]; exact hlimit) (by omega)
    rw [hrule, hbudget] at hrest
    rw [alone, hverdict, hrest]
    rfl

/-! ### Runs -/

variable [PeerAddresses]

def step : LimiterCall → Call LimiterError Limiter (List LimitDecision)
  | .check operation address now => (fun decision => [decision]) <$> check operation address now
  | .sweep now => (fun _ => []) <$> sweep now
  | .sweepIfDue now => (fun _ => []) <$> sweepIfDue now

/-- The dimension a call removes to make room for another. -/
def evicts (s : Limiter) : LimiterCall → Option Dimension
  | .check operation address now =>
    if address = [] then none else (s.readied now).victim (operation, s.peerKey address)
  | _ => none

/-- The decision of a call on one dimension, with the time it was taken at. -/
def decision (d : Dimension) (s : Limiter) : LimiterCall →
    List (UInt64 × Except LimiterError LimitDecision)
  | .check operation address now =>
    if address ≠ [] ∧ (operation, s.peerKey address) = d then
      [(s.effective now, Call.verdict (check operation address now s))]
    else []
  | _ => []

/-- Every decision of a run on one dimension. -/
def decisions (d : Dimension) (s : Limiter) : List LimiterCall →
    List (UInt64 × Except LimiterError LimitDecision)
  | [] => []
  | call :: calls => s.decision d call ++ decisions d (Call.after (step call s)) calls

theorem evicts_check (operation : Operation) (address : Bytes) (now : UInt64) :
    s.evicts (.check operation address now) =
      if address = [] then none else (s.readied now).victim (operation, s.peerKey address) := rfl

theorem decision_check (d : Dimension) (operation : Operation) (address : Bytes) (now : UInt64) :
    s.decision d (.check operation address now) =
      if address ≠ [] ∧ (operation, s.peerKey address) = d then
        [(s.effective now, Call.verdict (check operation address now s))]
      else [] := rfl

/-- No call of a run removes a dimension to make room. -/
def Spares (d : Dimension) (s : Limiter) (calls : List LimiterCall) : Prop :=
  Runs.Along step (fun call s => s.evicts call ≠ some d) s calls

/-- The budget of a dimension amounts to that of its reference from now on. -/
def Tracks (s : Limiter) (d : Dimension) (b : Budget) : Prop :=
  (s.rule d).Agree s.clock (s.budget d) b

omit [PeerAddresses] in
theorem clock_eq (h : s'.lastNow = s.lastNow) : s'.clock = s.clock := by
  unfold clock
  rw [h]

omit [PeerAddresses] in
/-- Moving the clock, with or without a sweep, keeps what every budget amounts to. -/
theorem readied_keeps (s : Limiter) (now : UInt64) :
    (s.readied now).operatorKey = s.operatorKey ∧ (s.readied now).config = s.config ∧
      (s.readied now).nextRecency = s.nextRecency ∧
      (s.readied now).clock = (s.effective now).toNat := by
  unfold readied
  dsimp only
  split_ifs
  · have h := sweptAt_keeps (s.observeTime now) (s.effective now)
    exact ⟨h.operatorKey, h.config, h.nextRecency, clock_eq h.lastNow⟩
  · exact ⟨rfl, rfl, rfl, rfl⟩

omit [PeerAddresses] in
theorem Tracks.observed (h : Tracks s d b) (now : UInt64) : Tracks (s.observeTime now) d b := by
  obtain ⟨hle, hclock⟩ := effective_toNat s now
  unfold Tracks
  rw [hclock]
  exact h.mono hle

omit [PeerAddresses] in
theorem Tracks.swept (h : Tracks s d b) (now : UInt64) (hle : s.clock = now.toNat) :
    Tracks (s.sweptAt now) d b := by
  have hkeeps := sweptAt_keeps s now
  have hrule : (s.sweptAt now).rule d = s.rule d := by
    unfold rule
    rw [hkeeps.config]
  have hclock : (s.sweptAt now).clock = now.toNat := by
    unfold clock at hle ⊢
    rw [hkeeps.lastNow, hle]
  unfold Tracks
  rw [hrule, hclock, sweptAt_budget]
  exact h.refreshed hle.le

omit [PeerAddresses] in
theorem Tracks.readied (h : Tracks s d b) (now : UInt64) : Tracks (s.readied now) d b := by
  have hobserved := h.observed now
  unfold Limiter.readied
  dsimp only
  split_ifs
  · exact hobserved.swept _ (effective_toNat s now).2
  · exact hobserved

theorem check_eq {operation : Operation} {address : Bytes} (haddress : address ≠ []) :
    check operation address now s =
      checkEntry (operation, s.peerKey address) (s.effective now) (s.readied now) := if_neg haddress

theorem check_empty (operation : Operation) (now : UInt64) (s : Limiter) :
    check operation [] now s = .error .emptyPeerAddress s := rfl

theorem after_step_check (operation : Operation) (address : Bytes) (now : UInt64) (s : Limiter) :
    Call.after (step (.check operation address now) s) =
      Call.after (check operation address now s) := Call.after_map _ _ _

theorem after_step_sweepIfDue (now : UInt64) (s : Limiter) :
    Call.after (step (.sweepIfDue now) s) = s.readied now := by
  unfold step
  rw [Call.after_map]
  unfold sweepIfDue readied
  dsimp only
  split_ifs <;> rfl

theorem after_step_sweep (now : UInt64) (s : Limiter) :
    Call.after (step (.sweep now) s) = (s.observeTime now).sweptAt (s.effective now) := rfl

/-- No call changes the key or the policies. -/
theorem step_keeps (s : Limiter) (call : LimiterCall) :
    (Call.after (step call s)).operatorKey = s.operatorKey ∧
      (Call.after (step call s)).config = s.config := by
  cases call with
  | sweep now =>
    have h := sweptAt_keeps (s.observeTime now) (s.effective now)
    exact ⟨h.operatorKey, h.config⟩
  | sweepIfDue now =>
    obtain ⟨hkey, hconfig, -⟩ := readied_keeps s now
    rw [after_step_sweepIfDue]
    exact ⟨hkey, hconfig⟩
  | check operation address now =>
    rw [after_step_check]
    by_cases haddress : address = []
    · subst haddress
      exact ⟨rfl, rfl⟩
    · obtain ⟨hkey, hconfig, -⟩ := readied_keeps s now
      have hkeeps := (checkEntry_admits (s.readied now) (operation, s.peerKey address)
        (s.effective now)).keeps
      rw [check_eq haddress]
      exact ⟨hkeeps.operatorKey.trans hkey, hkeeps.config.trans hconfig⟩

theorem step_rule (s : Limiter) (call : LimiterCall) (d : Dimension) :
    (Call.after (step call s)).rule d = s.rule d := by
  unfold rule
  rw [(step_keeps s call).2]

/-- The clock never runs backwards. -/
theorem step_clock (s : Limiter) (call : LimiterCall) :
    s.clock ≤ (Call.after (step call s)).clock := by
  cases call with
  | sweep now =>
    have hkept := clock_eq (sweptAt_keeps (s.observeTime now) (s.effective now)).lastNow
    rw [after_step_sweep, hkept]
    exact (effective_toNat s now).1
  | sweepIfDue now =>
    rw [after_step_sweepIfDue, (readied_keeps s now).2.2.2]
    exact (effective_toNat s now).1
  | check operation address now =>
    rw [after_step_check]
    by_cases haddress : address = []
    · subst haddress
      exact le_rfl
    · have hkeeps := (checkEntry_admits (s.readied now) (operation, s.peerKey address)
        (s.effective now)).keeps
      rw [check_eq haddress, clock_eq hkeeps.lastNow]
      exact (effective_toNat s now).1.trans (readied_keeps s now).2.2.2.ge

omit [PeerAddresses] in
theorem Tracks.admitted {result : EStateM.Result LimiterError Limiter LimitDecision}
    (h : Tracks s d b) (hadmits : Admits s d' now result) (hne : d ≠ d')
    (hd : s.victim d' ≠ some d) : Tracks (Call.after result) d b := by
  have hkeeps := hadmits.keeps
  unfold Tracks rule clock
  rw [hkeeps.config, hkeeps.lastNow, hadmits.other hne hd]
  exact h

/-- A call that is no check of a dimension keeps what its budget amounts to. -/
theorem Tracks.step_other (h : Tracks s d b) {call : LimiterCall} (hspare : s.evicts call ≠ some d)
    (hother : s.decision d call = []) : Tracks (Call.after (step call s)) d b := by
  cases call with
  | sweep now =>
    exact (h.observed now).swept _ (effective_toNat s now).2
  | sweepIfDue now =>
    rw [after_step_sweepIfDue]
    exact h.readied now
  | check operation address now =>
    rw [after_step_check]
    by_cases haddress : address = []
    · subst haddress
      exact h
    · have hne : d ≠ (operation, s.peerKey address) := by
        rintro rfl
        simp [decision, haddress] at hother
      rw [check_eq haddress]
      rw [evicts_check, if_neg haddress] at hspare
      exact (h.readied now).admitted (checkEntry_admits _ _ _) hne hspare

/-- A check of a dimension decides as the sliding window does. -/
theorem Tracks.step_self (h : Tracks s d b) (hlimit : 0 < (s.rule d).limit) (hroom : ¬ s.Exhausted)
    {call : LimiterCall} {entry : UInt64 × Except LimiterError LimitDecision}
    (hself : s.decision d call = [entry]) :
    entry.2 = decided ((s.rule d).check entry.1.toNat b).1 ∧
      Tracks (Call.after (step call s)) d ((s.rule d).check entry.1.toNat b).2 ∧
      s.clock ≤ entry.1.toNat ∧ (Call.after (step call s)).clock = entry.1.toNat := by
  cases call with
  | sweep now => cases hself
  | sweepIfDue now => cases hself
  | check operation address now =>
    rw [decision_check] at hself
    split_ifs at hself with hnamed
    obtain ⟨haddress, hd⟩ := hnamed
    obtain rfl := List.singleton_inj.mp hself
    obtain ⟨-, hconfig, hrecency, hclock⟩ := readied_keeps s now
    have hrule : (s.readied now).rule d = s.rule d := by
      unfold rule
      rw [hconfig]
    have hroom' : ¬ (s.readied now).Exhausted := by
      unfold Exhausted
      rwa [hrecency]
    have hadmits := checkEntry_admits (s.readied now) d (s.effective now)
    have hkeeps := hadmits.keeps
    obtain ⟨hverdict, hbudget, -⟩ := hadmits.self hroom' (hrule ▸ hlimit)
    have hsame := (h.readied now).check (hclock.le)
    rw [hsame, hrule] at hverdict hbudget
    rw [after_step_check, check_eq haddress, hd]
    refine ⟨hverdict, ?_, (effective_toNat s now).1, ?_⟩
    · unfold Tracks
      rw [hbudget]
      exact Rule.Agree.refl _ _ _
    · rw [clock_eq hkeeps.lastNow]
      exact hclock

/-- Once the order numbers are used up, every check is refused. -/
theorem step_exhausted (h : s.Exhausted) (d : Dimension) (call : LimiterCall) :
    (Call.after (step call s)).Exhausted ∧
      ∀ entry ∈ s.decision d call, entry.2 = .error .timeOverflow := by
  cases call with
  | sweep now => exact ⟨(sweptAt_keeps (s.observeTime now) _).nextRecency.trans h,
      (by intros; contradiction)⟩
  | sweepIfDue now =>
    rw [after_step_sweepIfDue]
    exact ⟨(readied_keeps s now).2.2.1.trans h, (by intros; contradiction)⟩
  | check operation address now =>
    rw [after_step_check]
    by_cases haddress : address = []
    · subst haddress
      exact ⟨h, by simp [decision]⟩
    · have hfull := (checkEntry_admits (s.readied now) (operation, s.peerKey address)
        (s.effective now)).full ((readied_keeps s now).2.2.1.trans h)
      rw [check_eq haddress]
      refine ⟨hfull.2, ?_⟩
      intro entry hentry
      rw [decision_check] at hentry
      split_ifs at hentry with hnamed
      · obtain rfl := List.mem_singleton.mp hentry
        rw [check_eq haddress]
        exact hfull.1
      · cases hentry

theorem decisions_exhausted (h : s.Exhausted) (calls : List LimiterCall) :
    ∀ entry ∈ s.decisions d calls, entry.2 = .error .timeOverflow := by
  induction calls generalizing s with
  | nil => exact (by intros; contradiction)
  | cons call calls ih =>
    obtain ⟨hnext, hdecision⟩ := step_exhausted h d call
    intro entry hentry
    obtain hentry | hentry := List.mem_append.mp hentry
    · exact hdecision entry hentry
    · exact ih hnext entry hentry

/-- A call takes at most one order number, and only a check takes one. -/
theorem step_nextRecency (s : Limiter) (call : LimiterCall) :
    (Call.after (step call s)).nextRecency.toNat ≤
      s.nextRecency.toNat + if call.isCheck then 1 else 0 := by
  cases call with
  | sweep now =>
    rw [after_step_sweep, (sweptAt_keeps (s.observeTime now) _).nextRecency]
    exact Nat.le_add_right _ _
  | sweepIfDue now =>
    rw [after_step_sweepIfDue, (readied_keeps s now).2.2.1]
    exact Nat.le_add_right _ _
  | check operation address now =>
    rw [after_step_check]
    by_cases haddress : address = []
    · subst haddress
      exact Nat.le_add_right _ _
    · have hle := (checkEntry_admits (s.readied now) (operation, s.peerKey address)
        (s.effective now)).nextRecency_le
      rw [(readied_keeps s now).2.2.1] at hle
      rw [check_eq haddress]
      exact hle

/-- A call makes at most one decision on a dimension. -/
theorem decision_cases (d : Dimension) (s : Limiter) (call : LimiterCall) :
    s.decision d call = [] ∨ ∃ entry, s.decision d call = [entry] := by
  unfold decision
  cases call with
  | check operation address now =>
    dsimp only
    split_ifs
    · exact .inr ⟨_, rfl⟩
    · exact .inl rfl
  | sweep now => exact .inl rfl
  | sweepIfDue now => exact .inl rfl

/-! ### Runs of one dimension -/

omit [PeerAddresses] in
/-- Decisions that go as the sliding window's verdicts do. -/
inductive Follows (r : Rule) : ℕ → Budget → List (UInt64 × Except LimiterError LimitDecision) → Prop
  | nil {clock : ℕ} {b : Budget} : Follows r clock b []
  | cons {clock : ℕ} {b : Budget} {now : UInt64} {verdict : Except LimiterError LimitDecision}
      {entries : List (UInt64 × Except LimiterError LimitDecision)} : clock ≤ now.toNat →
      verdict = decided (r.check now.toNat b).1 →
      Follows r now.toNat (r.check now.toNat b).2 entries →
      Follows r clock b ((now, verdict) :: entries)

/-- How the decisions of a run on one dimension go: as the sliding window decides, until
the order numbers are used up, and refusals from there. -/
def Decides (r : Rule) (clock : ℕ) (b : Budget) (numbers : ℕ)
    (entries : List (UInt64 × Except LimiterError LimitDecision)) : Prop :=
  ∃ before rest, entries = before ++ rest ∧ Follows r clock b before ∧
    (∀ entry ∈ rest, entry.2 = .error .timeOverflow) ∧ (numbers < 2 ^ 64 → rest = [])

section Follows

variable {r : Rule} {clock clock' : ℕ}
  {entries : List (UInt64 × Except LimiterError LimitDecision)}

omit [PeerAddresses] in
theorem Follows.mono (h : Follows r clock b entries) (hle : clock' ≤ clock) :
    Follows r clock' b entries := by
  cases h with
  | nil => exact .nil
  | cons hnow hverdict hrest => exact .cons (hle.trans hnow) hverdict hrest

omit [PeerAddresses] in
theorem Follows.verdicts_eq (h : Follows r clock b entries) :
    entries.map (fun entry => (entry.1.toNat, entry.2)) =
      (r.verdicts b (entries.map fun entry => entry.1.toNat)).map
        fun entry => (entry.1, decided entry.2) := by
  induction h with
  | nil => rfl
  | cons _ hverdict _ ih => rw [List.map_cons, ih, hverdict, List.map_cons, Rule.verdicts_cons,
      List.map_cons]

omit [PeerAddresses] in
theorem Follows.later (h : Follows r clock b entries) :
    ∀ t ∈ entries.map fun entry => entry.1.toNat, clock ≤ t := by
  induction h with
  | nil => exact (by intros; contradiction)
  | cons hnow _ _ ih =>
    intro t ht
    obtain rfl | ht := List.mem_cons.mp ht
    · exact hnow
    · exact hnow.trans (ih t ht)

omit [PeerAddresses] in
theorem Follows.sorted (h : Follows r clock b entries) :
    (entries.map fun entry => entry.1.toNat).Pairwise (· ≤ ·) := by
  induction h with
  | nil => exact List.Pairwise.nil
  | cons _ _ hrest ih => exact List.pairwise_cons.mpr ⟨hrest.later, ih⟩

end Follows

theorem isCheck_of_decision {call : LimiterCall}
    {entry : UInt64 × Except LimiterError LimitDecision} (h : s.decision d call = [entry]) :
    call.isCheck = true := by
  cases call with
  | check => rfl
  | sweep => cases h
  | sweepIfDue => cases h

/-- A run decides on a tracked dimension as the sliding window does, until the order
numbers are used up. -/
theorem Tracks.decides (h : Tracks s d b) (hlimit : 0 < (s.rule d).limit)
    {calls : List LimiterCall} (hspares : s.Spares d calls) :
    Decides (s.rule d) s.clock b (s.nextRecency.toNat + calls.countP LimiterCall.isCheck)
      (s.decisions d calls) := by
  induction calls generalizing s b with
  | nil => exact ⟨[], [], rfl, .nil, (by intros; contradiction), fun _ => rfl⟩
  | cons call calls ih =>
    obtain ⟨hspare, hspares⟩ := hspares
    have hrule := step_rule s call d
    have hnext := step_nextRecency s call
    have hlimit' : 0 < ((Call.after (step call s)).rule d).limit := hrule ▸ hlimit
    rw [List.countP_cons]
    obtain hother | ⟨⟨now, verdict⟩, hself⟩ := decision_cases d s call
    · obtain ⟨before, rest, heq, hfollows, hrest, hroom⟩ :=
        ih (h.step_other hspare hother) hlimit' hspares
      rw [hrule] at hfollows
      refine ⟨before, rest, ?_, hfollows.mono (step_clock s call), hrest, ?_⟩
      · rw [decisions, hother, List.nil_append, heq]
      · intro hnumbers
        exact hroom (by omega)
    · rw [isCheck_of_decision hself, if_pos rfl] at hnext ⊢
      by_cases hfull : s.Exhausted
      · refine ⟨[], s.decisions d (call :: calls), rfl, .nil, decisions_exhausted hfull _, ?_⟩
        intro hnumbers
        have hlast : s.nextRecency.toNat = 2 ^ 64 - 1 := by
          rw [hfull]
          rfl
        omega
      · obtain ⟨hverdict, htracks, hclock, hafter⟩ := h.step_self hlimit hfull hself
        obtain ⟨before, rest, heq, hfollows, hrest, hroom⟩ := ih htracks hlimit' hspares
        rw [hrule, hafter] at hfollows
        refine ⟨(now, verdict) :: before, rest, ?_, .cons hclock hverdict hfollows, hrest, ?_⟩
        · rw [decisions, hself, heq]
          rfl
        · intro hnumbers
          exact hroom (by omega)

theorem decisions_length (d : Dimension) (s : Limiter) (calls : List LimiterCall) :
    (s.decisions d calls).length ≤ calls.countP LimiterCall.isCheck := by
  induction calls generalizing s with
  | nil => exact le_rfl
  | cons call calls ih =>
    have hrest := ih (Call.after (step call s))
    rw [decisions, List.length_append, List.countP_cons]
    have hone : (s.decision d call).length ≤ if call.isCheck then 1 else 0 := by
      cases call with
      | sweep now => exact le_rfl
      | sweepIfDue now => exact le_rfl
      | check operation address now =>
        rw [decision_check]
        split_ifs <;> simp [LimiterCall.isCheck] at *
    omega

omit [PeerAddresses] in
theorem new_eq_ok {operatorKey : Octets 32} {config : LimiterConfig}
    (h : Limiter.new operatorKey config = .ok s) :
    s.config = config ∧ s.nextRecency = 0 ∧ s.entries = ∅ ∧ 0 < config.entryCap ∧
      ∀ operation, 0 < (config.policies operation).limit.toNat ∧
        0 < (config.policies operation).windowSeconds.toNat := by
  obtain ⟨hvalid, hs⟩ := guard_eq_ok.mp h
  obtain rfl := Except.ok.inj hs
  rw [not_or, not_or, List.any_eq_true] at hvalid
  obtain ⟨hcap, -, hpolicies⟩ := hvalid
  refine ⟨rfl, rfl, rfl, Nat.pos_of_ne_zero hcap, ?_⟩
  intro operation
  have hnot : ¬ ((config.policies operation).limit = 0 ∨
      (config.policies operation).windowSeconds = 0) := by
    intro hzero
    exact hpolicies ⟨operation, Operation.mem_all operation, decide_eq_true hzero⟩
  rw [not_or] at hnot
  constructor
  · apply Nat.pos_of_ne_zero
    intro hzero
    exact hnot.1 (UInt32.toNat_inj.mp hzero)
  · apply Nat.pos_of_ne_zero
    intro hzero
    exact hnot.2 (UInt64.toNat_inj.mp hzero)

omit [PeerAddresses] in
theorem tracks_of_empty (h : s.entries = ∅) (d : Dimension) : Tracks s d {} := by
  have hbudget : s.budget d = {} := by
    unfold budget
    rw [h]
    rfl
  unfold Tracks
  rw [hbudget]
  exact Rule.Agree.refl _ _ _

end Limiter
end CbclPairing
