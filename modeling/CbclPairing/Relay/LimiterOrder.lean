import CbclPairing.RecencyOrder
import CbclPairing.Relay.LimiterBounds

/-! The structure of the shared limiter: its order of use is an index of its entries, its
entries stay within the policies, and it makes room by removing the dimension whose last check
is the oldest. -/
namespace CbclPairing
open Codec Calls Tables RecencyOrder

namespace Entry

variable {policy : OperationPolicy} {now windowSeconds : UInt64} {e e' : Entry} {clock : ℕ}

/-- The attempts of an entry, oldest first: no more than the policy allows, and none ahead of
the clock. -/
structure Within (policy : OperationPolicy) (clock : ℕ) (e : Entry) : Prop where
  sorted : e.attempts.Pairwise (· ≤ ·)
  limited : e.attempts.length ≤ policy.limit.toNat
  past : ∀ timestamp ∈ e.attempts, timestamp.toNat ≤ clock

theorem Within.mono (h : e.Within policy clock) {later : ℕ} (hle : clock ≤ later) :
    e.Within policy later :=
  ⟨h.sorted, h.limited, fun timestamp hmem => (h.past timestamp hmem).trans hle⟩

theorem Within.sublist (h : e.Within policy clock) (hsub : e'.attempts.Sublist e.attempts) :
    e'.Within policy clock :=
  ⟨h.sorted.sublist hsub, hsub.length_le.trans h.limited,
    fun timestamp hmem => h.past timestamp (hsub.subset hmem)⟩

theorem pruneAttempts_sublist (windowSeconds now : UInt64) (attempts : List UInt64) :
    (pruneAttempts windowSeconds now attempts).Sublist attempts :=
  List.dropWhile_sublist _

/-- What a sweep leaves of an entry keeps its place in the order of use. -/
theorem swept_some (h : e.swept windowSeconds now = some e') :
    e'.recency = e.recency ∧ e'.attempts.Sublist e.attempts := by
  unfold swept at h
  cases hcooldown : e.cooldownUntil with
  | some retryAt =>
    simp only [hcooldown] at h
    split_ifs at h
    obtain rfl := Option.some.inj h
    exact ⟨rfl, List.Sublist.refl _⟩
  | none =>
    simp only [hcooldown] at h
    split_ifs at h
    obtain rfl := Option.some.inj h
    exact ⟨rfl, pruneAttempts_sublist windowSeconds now e.attempts⟩

/-- What one attempt makes of an entry. -/
structure Decides (policy : OperationPolicy) (now : UInt64) (e : Entry)
    (decided : Except LimiterError LimitDecision × Entry) : Prop where
  recency : decided.2.recency = e.recency
  within : decided.2.Within policy now.toNat
  remaining : ∀ r, decided.1 = .ok (.allowed r) →
    r + decided.2.attempts.length = policy.limit.toNat

theorem attempt_decides (h : e.Within policy now.toNat) :
    Decides policy now e (e.attempt policy now) := by
  have hsub := pruneAttempts_sublist policy.windowSeconds now e.attempts
  unfold attempt
  generalize pruneAttempts policy.windowSeconds now e.attempts = kept at hsub
  have hpruned : Within policy now.toNat { e with attempts := kept } := h.sublist hsub
  dsimp only
  split_ifs with hfull
  · cases checkedAdd64 now.toNat cooldownSeconds with
    | none => exact ⟨rfl, hpruned, (by intros; contradiction)⟩
    | some retryAt => exact ⟨rfl, ⟨hpruned.sorted, hpruned.limited, hpruned.past⟩,
        (by intro n h; cases h)⟩
  · have hlength : (kept ++ [now]).length = kept.length + 1 := List.length_append
    refine ⟨rfl, ⟨?_, ?_, ?_⟩, ?_⟩
    · apply List.pairwise_append.mpr
      refine ⟨hpruned.sorted, List.pairwise_singleton _ _, ?_⟩
      intro timestamp hmem last hlast
      rw [List.mem_singleton.mp hlast]
      exact UInt64.le_iff_toNat_le.mpr (hpruned.past timestamp hmem)
    · show (kept ++ [now]).length ≤ _
      omega
    · intro timestamp hmem
      rcases List.mem_append.mp hmem with hmem | hmem
      · exact hpruned.past timestamp hmem
      · rw [List.mem_singleton.mp hmem]
    · intro r hr
      obtain rfl := LimitDecision.allowed.inj (Except.ok.inj hr)
      show policy.limit.toNat - (kept ++ [now]).length + (kept ++ [now]).length = _
      omega

theorem check_decides (h : e.Within policy now.toNat) :
    Decides policy now e (e.check policy now) := by
  unfold check
  cases hcooldown : e.cooldownUntil with
  | none => exact attempt_decides h
  | some retryAt =>
    dsimp only
    split_ifs with hnow
    · exact ⟨rfl, h, (by intro n h; cases h)⟩
    · have hnil : Within policy now.toNat { e with cooldownUntil := none, attempts := [] } :=
        h.sublist (List.nil_sublist _)
      have hcleared := attempt_decides hnil
      exact ⟨hcleared.recency, hcleared.within, hcleared.remaining⟩

end Entry

namespace Limiter

variable {s : Limiter} {history : List Dimension} {d d' : Dimension} {now : UInt64} {e e' : Entry}

/-- The place of a dimension in the order of use. -/
def stamp (s : Limiter) (d : Dimension) : Option UInt64 := (s.entries.lookup d).map Entry.recency

theorem stamp_eq_some {r : UInt64} :
    s.stamp d = some r ↔ ∃ e, s.entries.lookup d = some e ∧ e.recency = r :=
  Option.map_eq_some_iff

theorem stamp_eq_none : s.stamp d = none ↔ d ∉ s.entries := by
  unfold stamp
  rw [Option.map_eq_none_iff]
  exact Finmap.lookup_eq_none

/-- The limiter is in order after a history of checked dimensions. -/
structure Ordered (s : Limiter) (history : List Dimension) : Prop where
  numbered : s.nextRecency.toNat = history.length
  indexed : Indexes s.recency s.stamp
  stamped : Stamped UInt64.toNat history s.stamp
  room : Table.size s.entries ≤ s.config.entryCap
  within : ∀ d e, s.entries.lookup d = some e → e.Within (s.config.policies d.1) s.clock

theorem ordered_of_empty (hnext : s.nextRecency = 0) (hempty : s.entries = ∅)
    (hrecency : s.recency = ∅) : s.Ordered [] := by
  have hstamp : ∀ d, s.stamp d = none := by
    intro d
    unfold stamp
    rw [hempty]
    rfl
  have hlookup : ∀ d, s.entries.lookup d = none := by
    intro d
    rw [hempty]
    rfl
  constructor
  · rw [hnext]
    rfl
  · intro r d
    rw [hrecency, hstamp]
    simp
  · intro d r hd
    rw [hstamp] at hd
    cases hd
  · rw [hempty]
    exact Nat.zero_le _
  · intro d e he
    rw [hlookup] at he
    cases he

/-! ### Time and sweeps -/

theorem Ordered.observed (h : s.Ordered history) (now : UInt64) :
    (s.observeTime now).Ordered history := by
  obtain ⟨hle, hclock⟩ := effective_toNat s now
  refine ⟨h.numbered, h.indexed, h.stamped, h.room, ?_⟩
  intro d e he
  rw [hclock]
  exact (h.within d e he).mono hle

/-- An entry that keeps its place is put back. -/
theorem Ordered.updated (h : s.Ordered history) (he : s.entries.lookup d = some e)
    (hrecency : e'.recency = e.recency) (hwithin : e'.Within (s.config.policies d.1) s.clock) :
    Ordered { s with entries := s.entries.insert d e' } history := by
  have hlookup : ∀ d', Finmap.lookup d' (s.entries.insert d e' : Table Dimension Entry) =
      if d' = d then some e' else s.entries.lookup d' :=
    fun d' => Table.lookup_insert_if s.entries d d' e'
  have hstamp : stamp { s with entries := s.entries.insert d e' } = s.stamp := by
    funext d'
    unfold stamp
    rw [hlookup]
    split_ifs with hd
    · subst hd
      rw [he, Option.map_some, Option.map_some, hrecency]
    · rfl
  refine ⟨h.numbered, ?_, ?_, ?_, ?_⟩
  · rw [hstamp]
    exact h.indexed
  · rw [hstamp]
    exact h.stamped
  · show Table.size (s.entries.insert d e' : Table Dimension Entry) ≤ _
    rw [Table.size_insert he]
    exact h.room
  · intro d' e'' he''
    rw [hlookup] at he''
    split_ifs at he'' with hd
    · obtain rfl := Option.some.inj he''
      subst hd
      exact hwithin
    · exact h.within d' e'' he''

/-- A dimension is taken out of the entries and of the order of use. -/
def dropped (s : Limiter) (r : UInt64) (d : Dimension) : Limiter :=
  { s with entries := s.entries.erase d, recency := s.recency.erase (r, d) }

theorem lookup_dropped (r : UInt64) (d d' : Dimension) :
    (s.dropped r d).entries.lookup d' = if d' = d then none else s.entries.lookup d' :=
  Table.lookup_erase_if s.entries d d'

theorem stamp_dropped (r : UInt64) (d d' : Dimension) :
    (s.dropped r d).stamp d' = if d' = d then none else s.stamp d' := by
  unfold stamp
  rw [lookup_dropped]
  split_ifs <;> rfl

theorem Ordered.dropped (h : s.Ordered history) {r : UInt64} (hd : s.stamp d = some r) :
    (s.dropped r d).Ordered history := by
  refine ⟨h.numbered, ?_, ?_, ?_, ?_⟩
  · exact h.indexed.erase hd (stamp_dropped r d)
  · apply h.stamped.mono
    intro d' n hd'
    rw [stamp_dropped] at hd'
    split_ifs at hd'
    exact hd'
  · exact (Table.size_erase_le s.entries d).trans h.room
  · intro d' e he
    rw [lookup_dropped] at he
    split_ifs at he
    exact h.within d' e he

theorem Ordered.sweptEntry (h : s.Ordered history) (n : ℕ) (d : Dimension) :
    (sweepEntry now (n, s) d).2.Ordered history := by
  unfold sweepEntry
  dsimp only
  cases he : s.entries.lookup d with
  | none => exact h
  | some e =>
    dsimp only
    cases hswept : e.swept (s.config.policies d.1).windowSeconds now with
    | none => exact h.dropped (stamp_eq_some.mpr ⟨e, he, rfl⟩)
    | some e' =>
      obtain ⟨hrecency, hsub⟩ := Entry.swept_some hswept
      exact h.updated he hrecency ((h.within d e he).sublist hsub)

theorem Ordered.sweptEntries (h : s.Ordered history) (dimensions : List Dimension) (n : ℕ) :
    (dimensions.foldl (sweepEntry now) (n, s)).2.Ordered history := by
  induction dimensions generalizing n s with
  | nil => exact h
  | cons d dimensions ih => exact ih (h.sweptEntry n d) _

theorem Ordered.swept (h : s.Ordered history) (now : UInt64) :
    (s.sweptAt now).Ordered history := by
  have hinner : (s.sweepInner now).2.Ordered history := h.sweptEntries _ 0
  exact ⟨hinner.numbered, hinner.indexed, hinner.stamped, hinner.room, hinner.within⟩

theorem Ordered.readied (h : s.Ordered history) (now : UInt64) :
    (s.readied now).Ordered history := by
  unfold Limiter.readied
  dsimp only
  split_ifs
  · exact (h.observed now).swept _
  · exact h.observed now

/-! ### Admission -/

/-- A dimension that has no stamp gets the next one. -/
theorem Ordered.used (h : s.Ordered history) (s' : Limiter) (e' : Entry)
    {index : Finset (UInt64 × Dimension)}
    (hindex : Indexes index fun d' => if d' = d then none else s.stamp d')
    (hrecency : s'.recency = insert (s.nextRecency, d) index)
    (hnext : s'.nextRecency.toNat = s.nextRecency.toNat + 1)
    (hlookup : ∀ d', s'.entries.lookup d' = if d' = d then some e' else s.entries.lookup d')
    (hself : e'.recency = s.nextRecency) (hwithin : e'.Within (s.config.policies d.1) s.clock)
    (hconfig : s'.config = s.config) (hclock : s'.clock = s.clock)
    (hroom : Table.size s'.entries ≤ s.config.entryCap) : s'.Ordered (history ++ [d]) := by
  have hstamp : ∀ d', s'.stamp d' = if d' = d then some s.nextRecency else s.stamp d' := by
    intro d'
    unfold stamp
    rw [hlookup]
    split_ifs
    · rw [Option.map_some, hself]
    · rfl
  refine ⟨?_, ?_, ?_, ?_, ?_⟩
  · rw [hnext, h.numbered, List.length_append, List.length_singleton]
  · rw [hrecency]
    apply hindex.insert (if_pos rfl)
    intro d'
    rw [hstamp]
    split_ifs <;> rfl
  · apply h.stamped.used
    · intro n hn
      rw [hstamp, if_pos rfl] at hn
      rw [← Option.some.inj hn]
      exact h.numbered
    · intro d' hne n hn
      rw [hstamp, if_neg hne] at hn
      exact hn
  · rw [hconfig]
    exact hroom
  · intro d' e he
    rw [hlookup] at he
    rw [hconfig, hclock]
    split_ifs at he with hd
    · obtain rfl := Option.some.inj he
      rw [hd]
      exact hwithin
    · exact h.within d' e he

theorem Ordered.touched (h : s.Ordered history) {next : UInt64}
    (he : s.entries.lookup d = some e) (hnext : checkedSucc64 s.nextRecency = some next) :
    (s.touched d e next).Ordered (history ++ [d]) := by
  have hstamp : s.stamp d = some e.recency := stamp_eq_some.mpr ⟨e, he, rfl⟩
  apply h.used (s.touched d e next) { e with recency := s.nextRecency }
    (h.indexed.erase hstamp fun _ => rfl) rfl (checkedSucc64_eq_some.mp hnext)
    (fun d' => Table.lookup_insert_if s.entries d d' _) rfl
    ?_ rfl rfl
  · show Table.size (s.entries.insert d _ : Table Dimension Entry) ≤ _
    rw [Table.size_insert he]
    exact h.room
  · exact (h.within d e he).sublist (List.Sublist.refl _)

/-- Of the dimensions with an entry, the one whose last check is the oldest. -/
def Stalest (s : Limiter) (history : List Dimension) (d : Dimension) : Prop :=
  d ∈ s.entries ∧ ∃ i, LastAt history d i ∧
    ∀ d', d' ∈ s.entries → d' ≠ d → ∃ j, LastAt history d' j ∧ i < j

theorem Ordered.exists_stamp (h : s.Ordered history) (hd : d ∈ s.entries) :
    ∃ r, s.stamp d = some r ∧ LastAt history d r.toNat := by
  obtain ⟨e, he⟩ := Finmap.mem_iff.mp hd
  have hstamp : s.stamp d = some e.recency := stamp_eq_some.mpr ⟨e, he, rfl⟩
  exact ⟨e.recency, hstamp, h.stamped d _ hstamp⟩

theorem Ordered.oldest (h : s.Ordered history) {victim : UInt64 × Dimension}
    (hvictim : s.oldest = some victim) :
    s.stamp victim.2 = some victim.1 ∧ s.Stalest history victim.2 := by
  have hstamp : s.stamp victim.2 = some victim.1 :=
    (h.indexed victim.1 victim.2).mp (first_mem recencyLe hvictim)
  obtain ⟨e, he, -⟩ := stamp_eq_some.mp hstamp
  refine ⟨hstamp, Finmap.mem_of_lookup_eq_some he, victim.1.toNat, h.stamped _ _ hstamp, ?_⟩
  intro d' hd' hne
  obtain ⟨r, hr, hlast⟩ := h.exists_stamp hd'
  refine ⟨r.toNat, hlast, ?_⟩
  rcases first_le recencyLe hvictim ((h.indexed r d').mpr hr) with hlt | ⟨heq, -⟩
  · exact UInt64.lt_iff_toNat_lt.mp hlt
  · -- two dimensions would share one place
    have hsame : victim.1 = r := heq
    rw [hsame] at hstamp
    exact absurd (h.stamped.distinct hr hstamp) hne

theorem Ordered.exists_oldest (h : s.Ordered history) (hd : d ∈ s.entries) :
    ∃ victim, s.oldest = some victim := by
  cases hvictim : s.oldest with
  | some victim => exact ⟨victim, rfl⟩
  | none =>
    obtain ⟨r, hr, -⟩ := h.exists_stamp hd
    have hmem := (h.indexed r d).mpr hr
    rw [first_eq_none recencyLe hvictim] at hmem
    exact absurd hmem (Finset.notMem_empty _)

/-- Making room removes exactly the stalest dimension, when there is no room. -/
theorem Ordered.vacated (h : s.Ordered history) (hcap : 0 < s.config.entryCap) :
    s.vacated.Ordered history ∧ Table.size s.vacated.entries < s.config.entryCap ∧
      (s.config.entryCap ≤ Table.size s.entries → ∃ victim, s.Stalest history victim ∧
        ∀ d', s.vacated.entries.lookup d' =
          if d' = victim then none else s.entries.lookup d') := by
  unfold Limiter.vacated
  split_ifs with hfull
  · have hsome : 0 < (Finmap.keys s.entries).card := hcap.trans_le hfull
    obtain ⟨d, hd⟩ := Finset.card_pos.mp hsome
    obtain ⟨victim, hvictim⟩ := h.exists_oldest (Finmap.mem_keys.mp hd)
    obtain ⟨hstamp, hstalest⟩ := h.oldest hvictim
    have hevict : s.evictLru = { s.dropped victim.1 victim.2 with
        capacityEvictions := saturatingSucc s.capacityEvictions } := by
      unfold evictLru
      rw [hvictim]
      rfl
    have hdropped := h.dropped hstamp
    rw [hevict]
    refine ⟨⟨hdropped.numbered, hdropped.indexed, hdropped.stamped, hdropped.room,
      hdropped.within⟩, ?_, fun _ => ⟨victim.2, hstalest, lookup_dropped victim.1 victim.2⟩⟩
    show (Finmap.keys (s.entries.erase victim.2)).card < _
    rw [Finmap.keys_erase, Finset.card_erase_of_mem (Finmap.mem_keys.mpr hstalest.1)]
    have hroom : (Finmap.keys s.entries).card ≤ s.config.entryCap := h.room
    omega
  · exact ⟨h, Nat.lt_of_not_le hfull, fun hle => absurd hle hfull⟩

theorem Ordered.entered (h : s.Ordered history) {next : UInt64} (hnew : d ∉ s.entries)
    (hnext : checkedSucc64 s.nextRecency = some next) (hclock : s.clock = now.toNat)
    (hlimit : 0 < (s.config.policies d.1).limit.toNat)
    (hroom : Table.size s.entries < s.config.entryCap) :
    (s.entered d now next).Ordered (history ++ [d]) := by
  have hnone : ∀ d', s.stamp d' = if d' = d then none else s.stamp d' := by
    intro d'
    split_ifs with hd
    · rw [hd]
      exact stamp_eq_none.mpr hnew
    · rfl
  have hindex : Indexes s.recency fun d' => if d' = d then none else s.stamp d' := by
    rw [← funext hnone]
    exact h.indexed
  apply h.used (s.entered d now next) ⟨[now], none, s.nextRecency⟩ hindex rfl
    (checkedSucc64_eq_some.mp hnext) (fun d' => Table.lookup_insert_if s.entries d d' _) rfl
    ?_ rfl rfl
  · show Table.size (s.entries.insert d _ : Table Dimension Entry) ≤ _
    rw [Table.size_insert_new hnew]
    omega
  · refine ⟨List.pairwise_singleton _ _, hlimit, ?_⟩
    intro timestamp hmem
    rw [List.mem_singleton.mp hmem, hclock]

/-- What one more check of a dimension answers, and what it does to the others. -/
structure Admitted (s : Limiter) (history : List Dimension) (d : Dimension)
    (result : EStateM.Result LimiterError Limiter LimitDecision) : Prop where
  remaining : ∀ r, Call.verdict result = .ok (.allowed r) → ∃ e,
    (Call.after result).entries.lookup d = some e ∧
      r + e.attempts.length = (s.config.policies d.1).limit.toNat
  fresh : d ∉ s.entries →
    Call.verdict result = .ok (.allowed ((s.config.policies d.1).limit.toNat - 1))
  spared : d ∈ s.entries ∨ Table.size s.entries < s.config.entryCap → ∀ d', d' ≠ d →
    (Call.after result).entries.lookup d' = s.entries.lookup d'
  evicted : d ∉ s.entries → s.config.entryCap ≤ Table.size s.entries → ∃ victim,
    s.Stalest history victim ∧ ∀ d', d' ≠ d → (Call.after result).entries.lookup d' =
      if d' = victim then none else s.entries.lookup d'

theorem Ordered.exists_next (h : s.Ordered history) (hroom : history.length + 1 < 2 ^ 64) :
    ∃ next, checkedSucc64 s.nextRecency = some next := by
  cases hnext : checkedSucc64 s.nextRecency with
  | some next => exact ⟨next, rfl⟩
  | none =>
    have hnumber := h.numbered
    rw [checkedSucc64_eq_none.mp hnext] at hnumber
    change 2 ^ 64 - 1 = _ at hnumber
    omega

theorem Ordered.checkedAgain (h : s.Ordered history) (hclock : s.clock = now.toNat)
    (hroom : history.length + 1 < 2 ^ 64) (he : s.entries.lookup d = some e) :
    (Call.after (checkEntry d now s)).Ordered (history ++ [d]) ∧
      Admitted s history d (checkEntry d now s) := by
  obtain ⟨next, hnext⟩ := h.exists_next hroom
  have hmem : d ∈ s.entries := Finmap.mem_of_lookup_eq_some he
  have htouched := h.touched he hnext
  have hwithin : Entry.Within (s.config.policies d.1) now.toNat
      { e with recency := s.nextRecency } :=
    hclock ▸ (h.within d e he).sublist (List.Sublist.refl _)
  have hdecides := Entry.check_decides hwithin
  have hself : (s.touched d e next).entries.lookup d =
      some { e with recency := s.nextRecency } := Finmap.lookup_insert _
  obtain ⟨hverdict, hafter⟩ := decideEntry_eq d now { e with recency := s.nextRecency }
    (s.touched d e next)
  rw [checkEntry_again he hnext]
  constructor
  · rw [hafter]
    apply htouched.updated hself hdecides.recency
    show Entry.Within _ s.clock _
    rw [hclock]
    exact hdecides.within
  · constructor
    · intro r hr
      rw [hafter]
      exact ⟨_, Finmap.lookup_insert _, hdecides.remaining r (hverdict.symm.trans hr)⟩
    · intro hnew
      exact absurd hmem hnew
    · intro _ d' hne
      rw [hafter]
      exact (Finmap.lookup_insert_of_ne _ hne).trans (Finmap.lookup_insert_of_ne _ hne)
    · intro hnew
      exact absurd hmem hnew

theorem Ordered.checkedFirst (h : s.Ordered history) (hclock : s.clock = now.toNat)
    (hroom : history.length + 1 < 2 ^ 64) (hcap : 0 < s.config.entryCap)
    (hlimit : 0 < (s.config.policies d.1).limit.toNat) (hnew : d ∉ s.entries) :
    (Call.after (checkEntry d now s)).Ordered (history ++ [d]) ∧
      Admitted s history d (checkEntry d now s) := by
  obtain ⟨next, hnext⟩ := h.exists_next hroom
  obtain ⟨hvacated, hsize, hvictim⟩ := h.vacated hcap
  obtain ⟨hkeeps, hrecency⟩ := vacated_keeps s
  have hlookup := Finmap.lookup_eq_none.mpr hnew
  have habsent : d ∉ s.vacated.entries := by
    by_cases hfull : s.config.entryCap ≤ Table.size s.entries
    · obtain ⟨victim, -, hothers⟩ := hvictim hfull
      apply Finmap.lookup_eq_none.mp
      rw [hothers, hlookup, ite_self]
    · unfold Limiter.vacated
      rw [if_neg hfull]
      exact hnew
  have hothers : ∀ d', d' ≠ d → (s.vacated.entered d now next).entries.lookup d' =
      s.vacated.entries.lookup d' := fun d' hne => Finmap.lookup_insert_of_ne _ hne
  rw [checkEntry_new hlookup]
  simp only [hnext]
  constructor
  · apply hvacated.entered habsent
    · rw [hrecency]
      exact hnext
    · rw [clock_eq hkeeps.lastNow]
      exact hclock
    · rw [hkeeps.config]
      exact hlimit
    · rw [hkeeps.config]
      exact hsize
  · constructor
    · intro r hr
      obtain rfl := LimitDecision.allowed.inj (Except.ok.inj hr)
      refine ⟨_, Finmap.lookup_insert _, ?_⟩
      show (s.config.policies d.1).limit.toNat - 1 + 1 = _
      omega
    · intro _
      rfl
    · intro hspare d' hne
      have hroomy : ¬ s.config.entryCap ≤ Table.size s.entries := by
        rcases hspare with hmem | hlt
        · exact absurd hmem hnew
        · omega
      have hsame : s.vacated = s := if_neg hroomy
      exact (hothers d' hne).trans (by rw [hsame])
    · intro _ hfull
      obtain ⟨victim, hstalest, hlookups⟩ := hvictim hfull
      exact ⟨victim, hstalest, fun d' hne => (hothers d' hne).trans (hlookups d')⟩

/-- A configuration that a limiter is made of. -/
structure Accepted (config : LimiterConfig) : Prop where
  room : 0 < config.entryCap
  limits : ∀ operation, 0 < (config.policies operation).limit.toNat

theorem Ordered.checkedEntry (h : s.Ordered history) (hclock : s.clock = now.toNat)
    (hroom : history.length + 1 < 2 ^ 64) (hconfig : Accepted s.config) (d : Dimension) :
    (Call.after (checkEntry d now s)).Ordered (history ++ [d]) ∧
      Admitted s history d (checkEntry d now s) := by
  by_cases hmem : d ∈ s.entries
  · obtain ⟨e, he⟩ := Finmap.mem_iff.mp hmem
    exact h.checkedAgain hclock hroom he
  · exact h.checkedFirst hclock hroom hconfig.room (hconfig.limits d.1) hmem

/-! ### Runs -/

variable [PeerAddresses]

/-- The dimension a call checks. -/
def checked : LimiterCall → Limiter → Option Dimension
  | .check operation address _, s =>
    if address = [] then none else some (operation, s.peerKey address)
  | _, _ => none

/-- The dimensions that the calls of a run check, in order. -/
def checkedDimensions (s : Limiter) (calls : List LimiterCall) : List Dimension :=
  Runs.noted step checked s calls

theorem checked_check (operation : Operation) (address : Bytes) (now : UInt64) (s : Limiter) :
    checked (.check operation address now) s =
      if address = [] then none else some (operation, s.peerKey address) := rfl

theorem length_checkedDimensions_le (s : Limiter) (calls : List LimiterCall) :
    (s.checkedDimensions calls).length ≤ calls.countP LimiterCall.isCheck := by
  unfold checkedDimensions
  induction calls generalizing s with
  | nil => exact le_rfl
  | cons call calls ih =>
    have hrest := ih (Call.after (step call s))
    have hone : (checked call s).toList.length ≤ if call.isCheck then 1 else 0 := by
      cases call with
      | check operation address now =>
        rw [checked_check]
        split_ifs <;> simp [LimiterCall.isCheck] at *
      | sweep | sweepIfDue => exact le_rfl
    rw [Runs.noted, List.length_append, List.countP_cons]
    omega

theorem Ordered.checked {operation : Operation} {address : Bytes} (h : s.Ordered history)
    (hroom : history.length + 1 < 2 ^ 64) (hconfig : Accepted s.config) (haddress : address ≠ [])
    (now : UInt64) :
    (Call.after (check operation address now s)).Ordered
        (history ++ [(operation, s.peerKey address)]) ∧
      Admitted (s.readied now) history (operation, s.peerKey address)
        (check operation address now s) := by
  obtain ⟨-, hsame, -, hclock⟩ := readied_keeps s now
  rw [check_eq haddress]
  apply (h.readied now).checkedEntry hclock hroom
  rw [hsame]
  exact hconfig

theorem Ordered.stepped (h : s.Ordered history) (hconfig : Accepted s.config) (call : LimiterCall)
    (hroom : (history ++ (Limiter.checked call s).toList).length < 2 ^ 64) :
    (Call.after (step call s)).Ordered (history ++ (Limiter.checked call s).toList) := by
  cases call with
  | sweep now =>
    rw [after_step_sweep]
    show Ordered _ (history ++ [])
    rw [List.append_nil]
    exact (h.observed now).swept _
  | sweepIfDue now =>
    rw [after_step_sweepIfDue]
    show Ordered _ (history ++ [])
    rw [List.append_nil]
    exact h.readied now
  | check operation address now =>
    rw [after_step_check]
    rw [checked_check] at hroom ⊢
    split_ifs at hroom ⊢ with haddress
    · subst haddress
      rw [Option.toList_none, List.append_nil]
      exact h
    · rw [Option.toList_some, List.length_append, List.length_singleton] at hroom
      exact (h.checked hroom hconfig haddress now).1

/-- A limiter in order after a run. -/
theorem run_ordered {operatorKey : Octets 32} {config : LimiterConfig}
    (h : Limiter.new operatorKey config = .ok s) {calls : List LimiterCall}
    (hroom : calls.countP LimiterCall.isCheck < 2 ^ 64) :
    (Runs.after step s calls).config = config ∧ Accepted config ∧
      (Runs.after step s calls).Ordered (s.checkedDimensions calls) := by
  obtain ⟨hconfig, hnext, hempty, hcap, hpolicies⟩ := new_eq_ok h
  have haccepted : Accepted config := ⟨hcap, fun operation => (hpolicies operation).1⟩
  have hrecency : s.recency = ∅ := by
    obtain ⟨-, hs⟩ := guard_eq_ok.mp h
    rw [← Except.ok.inj hs]
  have hrun := Runs.invariant (P := fun calls s' => s'.config = config ∧
      ((s.checkedDimensions calls).length < 2 ^ 64 → s'.Ordered (s.checkedDimensions calls)))
    step ⟨hconfig, fun _ => ordered_of_empty hnext hempty hrecency⟩ ?_ calls
  · obtain ⟨hsame, hordered⟩ := hrun
    exact ⟨hsame, haccepted, hordered ((length_checkedDimensions_le s calls).trans_lt hroom)⟩
  · rintro calls call ⟨hsame, hordered⟩
    refine ⟨(step_keeps _ call).2.trans hsame, ?_⟩
    unfold checkedDimensions at hordered ⊢
    rw [Runs.noted_concat]
    intro hlength
    apply (hordered ?_).stepped
    · rw [hsame]
      exact haccepted
    · exact hlength
    · rw [List.length_append] at hlength
      omega

/-- What holds of the entries and of the order of use together. -/
structure Structured (s : Limiter) : Prop where
  bijective : ∀ r d, (r, d) ∈ s.recency ↔ ∃ e, s.entries.lookup d = some e ∧ e.recency = r
  distinct : ∀ d d' e e', s.entries.lookup d = some e → s.entries.lookup d' = some e' →
    e.recency = e'.recency → d = d'
  below : ∀ d e, s.entries.lookup d = some e → e.recency < s.nextRecency
  room : Table.size s.entries ≤ s.config.entryCap
  within : ∀ d e, s.entries.lookup d = some e → e.Within (s.config.policies d.1) s.clock

omit [PeerAddresses] in
theorem Ordered.structured (h : s.Ordered history) : s.Structured := by
  have hstamp : ∀ d e, s.entries.lookup d = some e → s.stamp d = some e.recency :=
    fun d e he => stamp_eq_some.mpr ⟨e, he, rfl⟩
  constructor
  · intro r d
    rw [h.indexed, stamp_eq_some]
  · intro d d' e e' he he' hsame
    apply h.stamped.distinct (hstamp d e he)
    rw [hsame]
    exact hstamp d' e' he'
  · intro d e he
    rw [UInt64.lt_iff_toNat_lt, h.numbered]
    exact h.stamped.lt (hstamp d e he)
  · exact h.room
  · exact h.within

/-- After any run of fewer checks than there are order numbers, the order of use is in
bijection with the entries, and these are within the capacity and the policies. One more check
decides without an underflow, allows a new dimension all but one of its attempts, and makes
room by removing exactly the dimension whose last check is the oldest. -/
theorem limiter_structured {operatorKey : Octets 32} {config : LimiterConfig}
    (h : Limiter.new operatorKey config = .ok s) {calls : List LimiterCall}
    (hroom : calls.countP LimiterCall.isCheck < 2 ^ 64) :
    (Runs.after step s calls).config = config ∧ (Runs.after step s calls).Structured ∧
      ∀ operation address now, address ≠ [] → calls.countP LimiterCall.isCheck + 1 < 2 ^ 64 →
        Admitted ((Runs.after step s calls).readied now) (s.checkedDimensions calls)
          (operation, (Runs.after step s calls).peerKey address)
          (check operation address now (Runs.after step s calls)) := by
  obtain ⟨hsame, haccepted, hordered⟩ := run_ordered h hroom
  refine ⟨hsame, hordered.structured, ?_⟩
  intro operation address now haddress hmore
  have hlength := length_checkedDimensions_le s calls
  refine (hordered.checked ?_ ?_ haddress now).2
  · omega
  · rw [hsame]
    exact haccepted

end Limiter

/-! ### A full table -/

section Sample

attribute [local instance] PeerAddresses.transparent

namespace Limiter

/-- Two dimensions fill the table of two. -/
def filling : List LimiterCall := [.check .bind [1] 0, .check .allocate [1] 0]

theorem limiter_structured_full : (Runs.after step Limiter.long filling).config = .long ∧
    (Runs.after step Limiter.long filling).Structured ∧ ∀ operation address now, address ≠ [] →
      filling.countP LimiterCall.isCheck + 1 < 2 ^ 64 →
      Admitted ((Runs.after step Limiter.long filling).readied now)
        (Limiter.long.checkedDimensions filling)
        (operation, (Runs.after step Limiter.long filling).peerKey address)
        (check operation address now (Runs.after step Limiter.long filling)) :=
  limiter_structured new_long (by decide)

end Limiter

end Sample

end CbclPairing
