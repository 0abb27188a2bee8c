import CbclPairing.Relay.LimiterRuns

/-! What the limiter promises to one dimension: the decisions of a limiter of its own,
and as many attempts in a window as its policy allows while the cooldown outlasts it. -/
namespace CbclPairing
open Codec Calls Tables SlidingWindow

namespace Limiter

variable {s : Limiter} {d d' : Dimension} {now : UInt64} {address : Bytes}

/-! ### Runs of one address -/

section Only

/-- No dimension but one has an entry. -/
def Only (s : Limiter) (d : Dimension) : Prop := ∀ d', d' ≠ d → s.entries.lookup d' = none

theorem Only.keys (h : Only s d) : s.entries.keys ⊆ {d} := by
  intro d' hd'
  rw [Finset.mem_singleton]
  by_contra hne
  exact Finmap.lookup_eq_none.mp (h d' hne) (Finmap.mem_keys.mp hd')

theorem Only.size_le (h : Only s d) : Table.size s.entries ≤ 1 :=
  (Finset.card_le_card h.keys).trans (Finset.card_singleton d).le

theorem Only.victim (h : Only s d) (hcap : 0 < s.config.entryCap) : s.victim d = none := by
  unfold Limiter.victim
  split_ifs with hmem hfull
  · rfl
  · have hempty : s.entries.keys = ∅ := by
      rw [Finset.eq_empty_iff_forall_notMem]
      intro d' hd'
      obtain rfl := Finset.mem_singleton.mp (h.keys hd')
      exact hmem (Finmap.mem_keys.mp hd')
    have hsize : Table.size s.entries = 0 := by
      unfold Table.size
      rw [hempty, Finset.card_empty]
    omega
  · rfl

theorem Only.victim_of_two (h : Only s d) (hcap : 1 < s.config.entryCap) :
    s.victim d' = none := by
  have hsize := h.size_le
  unfold Limiter.victim
  split_ifs with hmem hfull
  · rfl
  · omega
  · rfl

theorem Only.readied (h : Only s d) (now : UInt64) : Only (s.readied now) d := by
  intro d' hne
  unfold Limiter.readied
  dsimp only
  split_ifs
  · have hlookup : ((s.observeTime now).sweptAt (s.effective now)).entries.lookup d' = _ :=
      sweepInner_lookup (s.observeTime now) (s.effective now) d'
    rw [hlookup]
    have hnone : (s.observeTime now).entries.lookup d' = none := h d' hne
    rw [hnone]
    rfl
  · exact h d' hne

theorem Only.admitted {result : EStateM.Result LimiterError Limiter LimitDecision}
    (h : Only s d) (hcap : 0 < s.config.entryCap) (hadmits : Admits s d now result) :
    Only (Call.after result) d := by
  intro d' hne
  have hspared : s.victim d ≠ some d' := by
    rw [h.victim hcap]
    intro h
    cases h
  cases hadmits with
  | exhausted _ _ _ hothers => exact (hothers d' hspared).trans (h d' hne)
  | found _ _ _ _ hothers hafter => exact hafter ▸ (hothers d' hne).trans (h d' hne)
  | entered _ _ _ _ hothers => exact (hothers d' hne hspared).trans (h d' hne)

end Only

variable [PeerAddresses]

/-- Checks of one address for one operation. -/
def checks (operation : Operation) (address : Bytes) (times : List UInt64) : List LimiterCall :=
  times.map (LimiterCall.check operation address)

/-- A limiter that only one address has used, for one operation. -/
structure Lone (s : Limiter) (d : Dimension) (address : Bytes) : Prop where
  only : Only s d
  cap : 0 < s.config.entryCap
  named : address ≠ []
  key : d.2 = s.peerKey address

/-- One check of the address. -/
theorem Lone.checked (h : Lone s d address) (now : UInt64) :
    s.evicts (.check d.1 address now) = none ∧
      Lone (Call.after (step (.check d.1 address now) s)) d address := by
  have hd : (d.1, s.peerKey address) = d := Prod.ext rfl h.key.symm
  obtain ⟨hkey, hconfig⟩ := step_keeps s (.check d.1 address now)
  obtain ⟨-, hconfig', -⟩ := readied_keeps s now
  have honly := h.only.readied now
  have hcap : 0 < (s.readied now).config.entryCap := hconfig' ▸ h.cap
  rw [evicts_check, if_neg h.named, hd]
  refine ⟨honly.victim hcap, ?_, hconfig ▸ h.cap, h.named, ?_⟩
  · rw [after_step_check, check_eq h.named, hd]
    exact honly.admitted hcap (checkEntry_admits _ d _)
  · rw [h.key]
    unfold peerKey
    rw [hkey]

/-- Checks of the address leave every dimension in its place. -/
theorem Lone.run (h : Lone s d address) (times : List UInt64) :
    (∀ d', s.Spares d' (checks d.1 address times)) ∧
      Lone (Runs.after step s (checks d.1 address times)) d address := by
  induction times generalizing s with
  | nil => exact ⟨fun _ => trivial, h⟩
  | cons now times ih =>
    obtain ⟨hnone, hnext⟩ := h.checked now
    obtain ⟨hspares, hafter⟩ := ih hnext
    refine ⟨fun d' => ⟨?_, hspares d'⟩, hafter⟩
    dsimp only
    rw [hnone]
    intro h
    cases h

omit [PeerAddresses] in
theorem effective_of_le (h : s.clock ≤ now.toNat) : s.effective now = now := by
  apply UInt64.toNat_inj.mp
  unfold clock at h
  unfold effective
  cases hlast : s.lastNow with
  | none => rfl
  | some last =>
    rw [hlast, Option.elim_some] at h
    have hmax : max last now = if last ≤ now then now else last := rfl
    rw [Option.elim_some, hmax, if_pos (UInt64.le_iff_toNat_le.mpr h)]

/-- Checks at times that the clock has not passed are decided at those times. -/
theorem Lone.times (h : Lone s d address) {times : List UInt64}
    (hsorted : (times.map UInt64.toNat).Pairwise (· ≤ ·))
    (hlater : ∀ now ∈ times, s.clock ≤ now.toNat) :
    (s.decisions d (checks d.1 address times)).map Prod.fst = times := by
  induction times generalizing s with
  | nil => rfl
  | cons now times ih =>
    obtain ⟨hle, hrest⟩ := List.pairwise_cons.mp hsorted
    have hnow := effective_of_le (hlater now List.mem_cons_self)
    have hd : (d.1, s.peerKey address) = d := Prod.ext rfl h.key.symm
    have hclock : (Call.after (step (.check d.1 address now) s)).clock = now.toNat := by
      have hkeeps := (checkEntry_admits (s.readied now) (d.1, s.peerKey address) (s.effective now)).keeps
      rw [after_step_check, check_eq h.named, clock_eq hkeeps.lastNow,
        (readied_keeps s now).2.2.2, hnow]
    have htail := ih (h.checked now).2 hrest fun later hmem =>
      hclock ▸ hle later.toNat (List.mem_map_of_mem hmem)
    rw [checks, List.map_cons, decisions, decision_check, if_pos ⟨h.named, hd⟩, hnow]
    exact congrArg (now :: ·) htail

omit [PeerAddresses] in
theorem clock_new {operatorKey : Octets 32} {config : LimiterConfig}
    (h : Limiter.new operatorKey config = .ok s) : s.clock = 0 := by
  obtain ⟨-, hs⟩ := guard_eq_ok.mp h
  obtain rfl := Except.ok.inj hs
  rfl

theorem lone_new {operatorKey : Octets 32} {config : LimiterConfig}
    (h : Limiter.new operatorKey config = .ok s) (operation : Operation) (haddress : address ≠ []) :
    Lone s (operation, s.peerKey address) address := by
  obtain ⟨hconfig, -, hempty, hcap, -⟩ := new_eq_ok h
  refine ⟨?_, hconfig ▸ hcap, haddress, rfl⟩
  intro d' _
  rw [hempty]
  exact Finmap.lookup_empty d'

/-! ### Windows -/

def Allows : Except LimiterError LimitDecision → Bool
  | .ok (.allowed _) => true
  | _ => false

/-- The seconds at which a run allowed an attempt. -/
def allowedAt (entries : List (UInt64 × Except LimiterError LimitDecision)) : List ℕ :=
  (entries.filter fun entry => Allows entry.2).map fun entry => entry.1.toNat

section AllowedAt

variable {r : Rule} {clock numbers : ℕ} {b : Budget}
  {entries : List (UInt64 × Except LimiterError LimitDecision)}

omit [PeerAddresses] in
theorem allows_decided (v : Verdict) : Allows (decided v) = v.isAllowed := by
  cases v <;> rfl

omit [PeerAddresses] in
theorem Follows.allowedAt_eq (h : Follows r clock b entries) :
    allowedAt entries =
      Rule.allowed (r.verdicts b (entries.map fun entry => entry.1.toNat)) := by
  induction h with
  | nil => rfl
  | @cons clock b now verdict entries _ hverdict _ ih =>
    rw [List.map_cons, Rule.verdicts_cons, Rule.allowed_cons, ← ih, ← allows_decided, ← hverdict]
    unfold allowedAt
    rw [List.filter_cons]
    split_ifs with hallows
    · rfl
    · rfl

omit [PeerAddresses] in
theorem Decides.allowedAt_eq (h : Decides r clock b numbers entries) :
    ∃ times : List ℕ, times.Pairwise (· ≤ ·) ∧
      allowedAt entries = Rule.allowed (r.verdicts b times) := by
  obtain ⟨before, rest, rfl, hfollows, hrest, -⟩ := h
  have hnone : rest.filter (fun entry => Allows entry.2) = [] := by
    rw [List.filter_eq_nil_iff]
    intro entry hentry
    rw [hrest entry hentry]
    exact Bool.false_ne_true
  refine ⟨_, hfollows.sorted, ?_⟩
  rw [← hfollows.allowedAt_eq]
  unfold allowedAt
  rw [List.filter_append, hnone, List.append_nil]

end AllowedAt

/-- Every window of every run on a dimension in its place holds at most as many allowed
attempts as the policy's limit. -/
def KeepsWindows (s : Limiter) (operation : Operation) : Prop :=
  ∀ (key : PeerKey) (calls : List LimiterCall), s.Spares (operation, key) calls → ∀ start,
    (Rule.inWindow (s.config.policies operation).windowSeconds.toNat start
      (allowedAt (s.decisions (operation, key) calls))).length ≤
        (s.config.policies operation).limit.toNat

/-- As many attempts at once as the limit allows, one more, and one after the cooldown. -/
def overrun (policy : OperationPolicy) : List UInt64 :=
  List.replicate (policy.limit.toNat + 1) 0 ++ [300]

omit [PeerAddresses] in
theorem overrun_toNat (policy : OperationPolicy) : (overrun policy).map UInt64.toNat =
    List.replicate (policy.limit.toNat + 1) 0 ++ [cooldownSeconds] := by
  unfold overrun
  rw [List.map_append, List.map_replicate]
  rfl

omit [PeerAddresses] in
theorem overrun_sorted (policy : OperationPolicy) :
    ((overrun policy).map UInt64.toNat).Pairwise (· ≤ ·) := by
  rw [overrun_toNat, List.pairwise_append]
  refine ⟨List.pairwise_replicate.mpr (.inr le_rfl), List.pairwise_singleton _ _, ?_⟩
  intro t ht later _
  rw [(List.mem_replicate.mp ht).2]
  exact Nat.zero_le _

omit [PeerAddresses] in
theorem overrun_length (policy : OperationPolicy) : (overrun policy).length < 2 ^ 64 := by
  have := policy.limit.toNat_lt
  unfold overrun
  rw [List.length_append, List.length_replicate, List.length_singleton]
  omega

/-- A window that outlasts the cooldown is overrun. -/
theorem overrun_exceeds {operatorKey : Octets 32} {config : LimiterConfig}
    (h : Limiter.new operatorKey config = .ok s) (operation : Operation) (haddress : address ≠ [])
    (hwindow : cooldownSeconds < (s.config.policies operation).windowSeconds.toNat) :
    s.Spares (operation, s.peerKey address)
        (checks operation address (overrun (s.config.policies operation))) ∧
      ¬ (s.rule (operation, s.peerKey address)).Bounded
        (allowedAt (s.decisions (operation, s.peerKey address)
          (checks operation address (overrun (s.config.policies operation))))) := by
  obtain ⟨hconfig, hnext, hempty, -, hpolicies⟩ := new_eq_ok h
  obtain ⟨hlimit, hpos⟩ := hconfig ▸ hpolicies operation
  set policy := s.config.policies operation with hpolicy
  have hlone := lone_new h operation haddress
  have htimes := hlone.times (overrun_sorted policy) fun now _ => by
    rw [clock_new h]
    exact Nat.zero_le _
  have hspares := (hlone.run (overrun policy)).1 (operation, s.peerKey address)
  obtain ⟨before, rest, heq, hfollows, -, hrest⟩ :=
    (tracks_of_empty hempty (operation, s.peerKey address)).decides hlimit hspares
  have hchecks : (checks operation address (overrun policy)).countP LimiterCall.isCheck ≤
      (overrun policy).length := List.countP_le_length.trans (List.length_map _).le
  have hlength := overrun_length policy
  have hnumbers : s.nextRecency.toNat = 0 := by
    rw [hnext]
    rfl
  have hroom : s.nextRecency.toNat +
      (checks operation address (overrun policy)).countP LimiterCall.isCheck < 2 ^ 64 := by omega
  rw [hrest hroom, List.append_nil] at heq
  refine ⟨hspares, ?_⟩
  have hseconds : before.map (fun entry => entry.1.toNat) =
      List.replicate (policy.limit.toNat + 1) 0 ++ [cooldownSeconds] := by
    rw [← overrun_toNat, ← htimes, List.map_map, heq]
    rfl
  rw [heq, hfollows.allowedAt_eq, hseconds]
  have hhorizon : cooldownSeconds < 2 ^ 64 := by decide
  exact Rule.verdicts_overrun hlimit hhorizon hwindow

/-- An accepted policy keeps its windows exactly when the cooldown outlasts them. -/
theorem keepsWindows_iff {operatorKey : Octets 32} {config : LimiterConfig}
    (h : Limiter.new operatorKey config = .ok s) (operation : Operation) :
    s.KeepsWindows operation ↔
      (config.policies operation).windowSeconds.toNat ≤ cooldownSeconds := by
  obtain ⟨rfl, -, hempty, -, hpolicies⟩ := new_eq_ok h
  obtain ⟨hlimit, hpos⟩ := hpolicies operation
  constructor
  · intro hkeeps
    by_contra hwindow
    obtain ⟨hspares, hexceeds⟩ :=
      overrun_exceeds h operation (List.cons_ne_nil 1 []) (Nat.lt_of_not_le hwindow)
    exact hexceeds (hkeeps _ _ hspares)
  · intro hwindow key calls hspares
    have hdecides := (tracks_of_empty hempty (operation, key)).decides hlimit hspares
    obtain ⟨times, hsorted, heq⟩ := hdecides.allowedAt_eq
    have hbounded : (s.rule (operation, key)).Bounded _ :=
      Rule.bounded_verdicts hpos hwindow hsorted
    rw [heq]
    exact hbounded

end Limiter

/-- A keyed hash that shows its key, and no textual addresses. -/
@[reducible] def PeerAddresses.transparent : PeerAddresses where
  hmacSha256 key _ := fill 32 key
  parseIpAddr _ := none

attribute [local instance] PeerAddresses.transparent

def LimiterConfig.long : LimiterConfig := .new ⟨1, 301⟩ 2 1

def Limiter.long : Limiter where
  operatorKey := fill 32 [7]
  config := .long
  entries := ∅
  recency := ∅
  nextRecency := 0
  lastNow := none
  lastSweep := none
  clockReversals := 0
  capacityEvictions := 0

theorem Limiter.new_long : Limiter.new (fill 32 [7]) .long = .ok Limiter.long := rfl

/-- A window one second longer than the cooldown. -/
theorem Limiter.keepsWindows_iff_long : Limiter.long.KeepsWindows .bind ↔ 301 ≤ 300 :=
  Limiter.keepsWindows_iff Limiter.new_long .bind

/-- One attempt is allowed at the start and one after the cooldown, in a window of one. -/
theorem Limiter.long_overruns :
    Limiter.new (fill 32 [7]) .long = .ok Limiter.long ∧
      Limiter.long.Spares (.bind, Limiter.long.peerKey [1])
        (Limiter.checks .bind [1] [0, 0, 300]) ∧
      ¬ ∀ start, (Rule.inWindow 301 start (Limiter.allowedAt (Limiter.long.decisions
        (.bind, Limiter.long.peerKey [1]) (Limiter.checks .bind [1] [0, 0, 300])))).length ≤ 1 :=
  ⟨Limiter.new_long, Limiter.overrun_exceeds Limiter.new_long .bind (List.cons_ne_nil 1 [])
    (Nat.lt_succ_self 300)⟩

namespace Limiter

variable {s : Limiter} {d d' : Dimension} {now : UInt64} {address : Bytes} [PeerAddresses]

/-! ### The last order number -/

theorem decisions_append (d : Dimension) (s : Limiter) (calls more : List LimiterCall) :
    s.decisions d (calls ++ more) =
      s.decisions d calls ++ (Runs.after step s calls).decisions d more := by
  induction calls generalizing s with
  | nil => rfl
  | cons call calls ih =>
    rw [List.cons_append, decisions, decisions, ih, List.append_assoc]
    rfl

omit [PeerAddresses] in
theorem Admits.takes {result : EStateM.Result LimiterError Limiter LimitDecision}
    (h : Admits s d now result) (hroom : ¬ s.Exhausted) :
    (Call.after result).nextRecency.toNat = s.nextRecency.toNat + 1 := by
  cases h with
  | exhausted hfull => exact absurd hfull hroom
  | found _ _ hnext _ _ hafter => exact hafter ▸ hnext
  | entered _ _ hnext => exact hnext

/-- Every check takes an order number while there is one. -/
theorem Lone.numbers (h : Lone s d address) (times : List UInt64)
    (hroom : s.nextRecency.toNat + times.length < 2 ^ 64) :
    (Runs.after step s (checks d.1 address times)).nextRecency.toNat =
      s.nextRecency.toNat + times.length := by
  induction times generalizing s with
  | nil => rfl
  | cons now times ih =>
    rw [List.length_cons] at hroom
    have hnext : (Call.after (step (.check d.1 address now) s)).nextRecency.toNat =
        s.nextRecency.toNat + 1 := by
      have hrecency := (readied_keeps s now).2.2.1
      have hfree : ¬ (s.readied now).Exhausted := by
        unfold Exhausted
        rw [hrecency]
        exact not_exhausted_of_lt (by omega)
      rw [after_step_check, check_eq h.named, (checkEntry_admits _ _ _).takes hfree, hrecency]
    have htail := ih (h.checked now).2 (by omega)
    rw [checks, List.map_cons, Runs.after_cons, List.length_cons]
    exact htail.trans (by omega)

theorem run_keeps (s : Limiter) (calls : List LimiterCall) :
    (Runs.after step s calls).operatorKey = s.operatorKey ∧
      (Runs.after step s calls).config = s.config := by
  induction calls generalizing s with
  | nil => exact ⟨rfl, rfl⟩
  | cons call calls ih =>
    obtain ⟨hkey, hconfig⟩ := step_keeps s call
    obtain ⟨hkey', hconfig'⟩ := ih (Call.after (step call s))
    exact ⟨hkey'.trans hkey, hconfig'.trans hconfig⟩

/-- All the checks that there are order numbers for, and one of another operation. -/
def exhausting (busy quiet : Operation) (address : Bytes) : List LimiterCall :=
  checks busy address (List.replicate (2 ^ 64 - 1) 0) ++ [.check quiet address 0]

theorem decisions_checks_of_ne (s : Limiter) {operation : Operation} (hne : operation ≠ d.1)
    (address : Bytes) (times : List UInt64) :
    s.decisions d (checks operation address times) = [] := by
  induction times generalizing s with
  | nil => rfl
  | cons now times ih =>
    have hnot : ¬ (address ≠ [] ∧ (operation, s.peerKey address) = d) := by
      rintro ⟨-, rfl⟩
      exact hne rfl
    rw [checks, List.map_cons, decisions, decision_check, if_neg hnot]
    exact ih _

/-- Other checks can use up the order numbers of a dimension that has made none. -/
theorem exhausting_refuses {operatorKey : Octets 32} {config : LimiterConfig}
    (h : Limiter.new operatorKey config = .ok s) (hcap : 1 < config.entryCap)
    {busy quiet : Operation} (hne : busy ≠ quiet) (haddress : address ≠ []) :
    s.Spares (quiet, s.peerKey address) (exhausting busy quiet address) ∧
      (s.decisions (quiet, s.peerKey address) (exhausting busy quiet address)).map Prod.snd =
        [.error .timeOverflow] := by
  obtain ⟨hconfig, hnumber, -⟩ := new_eq_ok h
  have hlone := lone_new h busy haddress
  obtain ⟨hspares, hafter⟩ := hlone.run (List.replicate (2 ^ 64 - 1) 0)
  have hlast := hlone.numbers (List.replicate (2 ^ 64 - 1) 0) (by
    rw [hnumber, List.length_replicate]
    decide)
  obtain ⟨hkey, hsame⟩ := run_keeps s (checks busy address (List.replicate (2 ^ 64 - 1) 0))
  rw [hnumber, List.length_replicate] at hlast
  unfold exhausting Spares
  rw [decisions_append, decisions_checks_of_ne s hne, List.nil_append, Runs.along_append]
  generalize Runs.after step s (checks busy address (List.replicate (2 ^ 64 - 1) 0)) = t at *
  have hfull : t.Exhausted := UInt64.toNat_inj.mp hlast
  have hquiet : (quiet, t.peerKey address) = (quiet, s.peerKey address) := by
    unfold peerKey
    rw [hkey]
  constructor
  · refine ⟨hspares _, ?_, trivial⟩
    have hcap' : 1 < (t.readied 0).config.entryCap := by
      rw [(readied_keeps t 0).2.1, hsame, hconfig]
      exact hcap
    show t.evicts (.check quiet address 0) ≠ _
    rw [evicts_check, if_neg haddress, (hafter.only.readied 0).victim_of_two hcap']
    intro h
    cases h
  · have hrefused := (step_exhausted hfull (quiet, s.peerKey address) (.check quiet address 0)).2
    rw [decisions, decision_check, if_pos ⟨haddress, hquiet⟩]
    rw [decision_check, if_pos ⟨haddress, hquiet⟩] at hrefused
    exact congrArg (fun verdict => [verdict]) (hrefused _ List.mem_cons_self)

omit [PeerAddresses] in
/-- A limiter of its own would have allowed it. -/
theorem alone_first {operatorKey : Octets 32} {config : LimiterConfig}
    (h : Limiter.new operatorKey config = .ok s) (d : Dimension) (now : UInt64) :
    s.alone d [now] = [.ok (.allowed ((config.policies d.1).limit.toNat - 1))] := by
  obtain ⟨rfl, hnext, hempty, -, hpolicies⟩ := new_eq_ok h
  obtain ⟨hlimit, -⟩ := hpolicies d.1
  have hbudget : s.budget d = {} := by
    unfold budget
    rw [hempty]
    rfl
  have hfirst : (s.rule d).check now.toNat {} =
      (.allowed ((s.rule d).limit - 1), { attempts := [now.toNat] }) :=
    Rule.check_fresh hlimit
  rw [alone_eq hlimit [now], hbudget]
  · rw [List.map_singleton, Rule.verdicts_cons, hfirst]
    rfl
  · have hroom : (0 : UInt64).toNat + 1 < 2 ^ 64 := by decide
    rw [hnext]
    exact hroom

/-- Up to the last order number, what a limiter shared with others decides on a
dimension is what a limiter of its own would. -/
theorem decisions_eq_alone {operatorKey : Octets 32} {config : LimiterConfig}
    (h : Limiter.new operatorKey config = .ok s) {calls : List LimiterCall}
    (hspares : s.Spares d calls) (hroom : calls.countP LimiterCall.isCheck < 2 ^ 64) :
    (s.decisions d calls).map Prod.snd = s.alone d ((s.decisions d calls).map Prod.fst) := by
  obtain ⟨rfl, hnext, hempty, -, hpolicies⟩ := new_eq_ok h
  have htracks := tracks_of_empty hempty d
  have hnumbers : s.nextRecency.toNat = 0 := by
    rw [hnext]
    rfl
  obtain ⟨before, rest, heq, hfollows, -, hrest⟩ :=
    htracks.decides (hpolicies d.1).1 hspares
  rw [hrest (by omega), List.append_nil] at heq
  have hlength := decisions_length d s calls
  have hbudget : s.budget d = {} := by
    unfold budget
    rw [hempty]
    rfl
  rw [alone_eq (hpolicies d.1).1, hbudget, List.map_map]
  · have hverdicts := congrArg (List.map Prod.snd) (heq ▸ hfollows).verdicts_eq
    rw [List.map_map, List.map_map] at hverdicts
    exact hverdicts
  · rw [hnumbers, List.length_map]
    omega

end Limiter

attribute [local instance] PeerAddresses.transparent

/-- Three bindings, the last one after a sweep that removed their entry. -/
theorem Limiter.decisions_eq_alone_long :
    (Limiter.long.decisions (.bind, Limiter.long.peerKey [1])
        (Limiter.checks .bind [1] [0, 0, 300])).map Prod.snd =
      Limiter.long.alone (.bind, Limiter.long.peerKey [1])
        ((Limiter.long.decisions (.bind, Limiter.long.peerKey [1])
          (Limiter.checks .bind [1] [0, 0, 300])).map Prod.fst) :=
  Limiter.decisions_eq_alone Limiter.new_long
    (Limiter.overrun_exceeds Limiter.new_long .bind (List.cons_ne_nil 1 [])
      (Nat.lt_succ_self 300)).1 (by decide)

/-- Bindings take every order number, and the first ping is refused. -/
theorem Limiter.long_exhausted :
    Limiter.new (fill 32 [7]) .long = .ok Limiter.long ∧
      Limiter.long.Spares (.ping, Limiter.long.peerKey [1])
        (Limiter.exhausting .bind .ping [1]) ∧
      (Limiter.long.decisions (.ping, Limiter.long.peerKey [1])
        (Limiter.exhausting .bind .ping [1])).map Prod.snd ≠
        Limiter.long.alone (.ping, Limiter.long.peerKey [1])
          ((Limiter.long.decisions (.ping, Limiter.long.peerKey [1])
            (Limiter.exhausting .bind .ping [1])).map Prod.fst) := by
  obtain ⟨hspares, hrefused⟩ := Limiter.exhausting_refuses Limiter.new_long
    (Nat.lt_succ_self 1) (show Operation.bind ≠ .ping by decide) (List.cons_ne_nil 1 [])
  refine ⟨Limiter.new_long, hspares, ?_⟩
  generalize Limiter.long.decisions _ (Limiter.exhausting .bind .ping [1]) = entries at hrefused ⊢
  obtain ⟨⟨now, verdict⟩, rfl, rfl⟩ := List.map_eq_singleton_iff.mp hrefused
  have halone := Limiter.alone_first Limiter.new_long (.ping, Limiter.long.peerKey [1]) now
  intro hsame
  cases hsame.trans halone

end CbclPairing
