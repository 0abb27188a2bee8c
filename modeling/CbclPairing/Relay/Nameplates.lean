import CbclPairing.Relay.Notices

/-! The nameplate an operator offers next: the scan of the occupied ones finds the least that
is free, and an allocation that takes it is answered with it. -/
namespace CbclPairing
open Codec Calls Tables

namespace Relay

/-! ### The scan -/

section Scan

variable {candidate bound n : ℕ} {occupied : List ℕ}

/-- The loop over the occupied nameplates, in their order. -/
def scanNameplates (candidate : ℕ) : List ℕ → ℕ
  | [] => candidate
  | occupied :: rest =>
    if occupied < candidate then scanNameplates candidate rest
    else if occupied ≠ candidate then candidate
    else scanNameplates (candidate + 1) rest

theorem le_scanNameplates (candidate : ℕ) (occupied : List ℕ) :
    candidate ≤ scanNameplates candidate occupied := by
  induction occupied generalizing candidate with
  | nil => exact le_rfl
  | cons head rest ih =>
    unfold scanNameplates
    split_ifs
    · exact ih candidate
    · exact le_rfl
    · have hrest := ih (candidate + 1)
      omega

/-- Everything that the scan passes is occupied. -/
theorem mem_of_lt_scanNameplates (hle : candidate ≤ n)
    (hlt : n < scanNameplates candidate occupied) : n ∈ occupied := by
  induction occupied generalizing candidate with
  | nil =>
    change n < candidate at hlt
    omega
  | cons head rest ih =>
    unfold scanNameplates at hlt
    split_ifs at hlt with hbelow hother
    · exact List.mem_cons_of_mem head (ih hle hlt)
    · omega
    · by_cases hn : n = candidate
      · subst hn
        rw [not_not.mp hother]
        exact List.mem_cons_self
      · apply List.mem_cons_of_mem head
        apply ih _ hlt
        omega

/-- The scan stops at a free nameplate. -/
theorem scanNameplates_notMem (hsorted : occupied.Pairwise (· < ·)) :
    scanNameplates candidate occupied ∉ occupied := by
  induction occupied generalizing candidate with
  | nil => exact List.not_mem_nil
  | cons head rest ih =>
    obtain ⟨hhead, hrest⟩ := List.pairwise_cons.mp hsorted
    rw [List.mem_cons, not_or]
    unfold scanNameplates
    split_ifs with hbelow hother
    · have hle := le_scanNameplates candidate rest
      exact ⟨by omega, ih hrest⟩
    · constructor
      · omega
      · intro hmem
        have hlt := hhead _ hmem
        omega
    · have hle := le_scanNameplates (candidate + 1) rest
      exact ⟨by omega, ih hrest⟩

theorem scanNameplates_isLeast (hsorted : occupied.Pairwise (· < ·)) (candidate : ℕ) :
    IsLeast {n | candidate ≤ n ∧ n ∉ occupied} (scanNameplates candidate occupied) := by
  constructor
  · exact ⟨le_scanNameplates candidate occupied, scanNameplates_notMem hsorted⟩
  · rintro n ⟨hle, hfree⟩
    by_contra hlt
    exact hfree (mem_of_lt_scanNameplates hle (Nat.lt_of_not_le hlt))

/-- The candidate stays within one of the largest nameplate. -/
theorem scanNameplates_le (hbound : ∀ n ∈ occupied, n ≤ bound) (hle : candidate ≤ bound + 1) :
    scanNameplates candidate occupied ≤ bound + 1 := by
  induction occupied generalizing candidate with
  | nil => exact hle
  | cons head rest ih =>
    obtain ⟨hhead, hrest⟩ := List.forall_mem_cons.mp hbound
    unfold scanNameplates
    split_ifs with hbelow hother
    · exact ih hrest hle
    · exact hle
    · apply ih hrest
      omega

end Scan

section Nameplates

variable {C L : Type} {s : Relay C L} {n : ℕ}

/-- The smallest unused positive numeric locator. -/
def firstAvailableNameplate (s : Relay C L) : Option ℕ :=
  let candidate := scanNameplates 1 (s.nameplates.keys.sort (· ≤ ·))
  if candidate ≤ 999999999 then some candidate else none

theorem candidate_isLeast (s : Relay C L) : IsLeast {n | 1 ≤ n ∧ n ∉ s.nameplates}
    (scanNameplates 1 (s.nameplates.keys.sort (· ≤ ·))) := by
  have hscan := scanNameplates_isLeast (Finset.sortedLT_sort s.nameplates.keys).pairwise 1
  simpa only [Finset.mem_sort, Finmap.mem_keys] using hscan

theorem firstAvailableNameplate_eq_some : s.firstAvailableNameplate = some n ↔
    IsLeast {n | 1 ≤ n ∧ n ∉ s.nameplates} n ∧ n ≤ 999999999 := by
  have hleast := s.candidate_isLeast
  unfold firstAvailableNameplate
  generalize scanNameplates 1 (s.nameplates.keys.sort (· ≤ ·)) = candidate at hleast
  rw [Option.ite_none_right_eq_some, Option.some.injEq]
  constructor
  · rintro ⟨hle, rfl⟩
    exact ⟨hleast, hle⟩
  · rintro ⟨hn, hle⟩
    obtain rfl := hleast.unique hn
    exact ⟨hle, rfl⟩

theorem firstAvailableNameplate_eq_none : s.firstAvailableNameplate = none ↔
    ∀ n, 1 ≤ n → n ≤ 999999999 → n ∈ s.nameplates := by
  have hleast := s.candidate_isLeast
  unfold firstAvailableNameplate
  generalize scanNameplates 1 (s.nameplates.keys.sort (· ≤ ·)) = candidate at hleast
  rw [ite_eq_right_iff]
  constructor
  · intro hout n hpos hle
    by_contra hfree
    have hcandidate : candidate ≤ n := hleast.2 ⟨hpos, hfree⟩
    cases hout (hcandidate.trans hle)
  · intro hall hle
    exact absurd (hall candidate hleast.1.1 hle) hleast.1.2

/-- A lifetime that an allocation may ask for. -/
structure Lives (now : UInt64) (ttlSeconds : Option ℕ) : Prop where
  least : minTtlSeconds ≤ ttlSeconds.getD defaultTtlSeconds
  most : ttlSeconds.getD defaultTtlSeconds ≤ maxTtlSeconds
  ends : now.toNat + ttlSeconds.getD defaultTtlSeconds < 2 ^ 64

theorem allocate_numbered {now : UInt64} {ttlSeconds : Option ℕ} (h : Lives now ttlSeconds)
    (hn : n ≤ 999999999) (id : Octets 32) (hash : MembershipHash) :
    ∃ m, Mailbox.allocate ⟨id, some n, hash, now, ttlSeconds⟩ = .ok m ∧
      m.expiresAt = UInt64.ofNat (now.toNat + ttlSeconds.getD defaultTtlSeconds) := by
  have hexpiry : Mailbox.expiry now (ttlSeconds.getD defaultTtlSeconds) =
      .ok (UInt64.ofNat (now.toNat + ttlSeconds.getD defaultTtlSeconds)) := by
    simp only [Mailbox.expiry, checkedAdd64, if_pos h.ends]
  have hrange : ¬ (ttlSeconds.getD defaultTtlSeconds < minTtlSeconds ∨
      maxTtlSeconds < ttlSeconds.getD defaultTtlSeconds) := by
    rw [not_or, not_lt, not_lt]
    exact ⟨h.least, h.most⟩
  have hplate : ¬ ((some n).any (999999999 < ·)) = true := by simpa using hn
  unfold Mailbox.allocate
  simp only [if_neg hrange, if_neg hplate, hexpiry, ok_bind]
  exact ⟨_, rfl, rfl⟩

variable [Primitives]

/-- What a new mailbox under the offered nameplate needs is free. -/
structure Vacant (s : Relay C L) (randomness : RelayRandomness) : Prop where
  nameplate : s.firstAvailableNameplate = some randomness.nameplate
  enabled : s.config.allocationEnabled = true
  capacity : s.mailboxes.size < s.config.capacity.openMailboxes.toNat
  identifier : randomness.mailboxId ∉ s.mailboxes
  token : tokenHash randomness.membershipToken ∉ s.membershipHashes

variable {connection : ConnectionId} {now : UInt64} {randomness : RelayRandomness}
  {ttlSeconds : Option ℕ}

theorem Vacant.allocate (h : s.Vacant randomness) (hunattached : s.membershipOf connection = none)
    (hlives : Lives now ttlSeconds) (hstore : ¬ s.Refuses) :
    ∃ s', allocate connection now randomness 1 ttlSeconds s =
      .ok [route connection (.allocated randomness.mailboxId randomness.membershipToken
        (some randomness.nameplate)
        (UInt64.ofNat (now.toNat + ttlSeconds.getD defaultTtlSeconds)))] s' ∧
      s'.nameplates.lookup randomness.nameplate = some randomness.mailboxId := by
  obtain ⟨hleast, hle⟩ := firstAvailableNameplate_eq_some.mp h.nameplate
  have hchosen : s.chooseNameplate 1 randomness.nameplate = .ok (some randomness.nameplate) := by
    unfold chooseNameplate
    rw [if_neg (by decide), if_pos rfl, if_pos ⟨hle, hleast.1.2⟩]
  obtain ⟨m, hm, hexpires⟩ := allocate_numbered hlives hle randomness.mailboxId
    (tokenHash randomness.membershipToken)
  have hbusy : ¬ (s.config.capacity.openMailboxes.toNat ≤ s.mailboxes.size ∨
      randomness.mailboxId ∈ s.mailboxes ∨
      tokenHash randomness.membershipToken ∈ s.membershipHashes) := by
    rw [not_or, not_or, not_le]
    exact ⟨h.capacity, h.identifier, h.token⟩
  obtain ⟨hid, hplate, -⟩ := Mailbox.allocate_given hm
  have hput : stored (MailboxStore.put m) s = .ok () (s.wrote m) := by
    rw [stored_put (Mailbox.Allocated.v1 hm).fresh.1.toRecorded, if_neg hstore]
  have hrun : retain connection m (.allocated randomness.mailboxId randomness.membershipToken
      (some randomness.nameplate) m.expiresAt) s = .ok [route connection
        (.allocated randomness.mailboxId randomness.membershipToken (some randomness.nameplate)
          m.expiresAt)] (((s.wrote m).install m).attach connection ⟨m.mailboxId, .allocator⟩) := by
    unfold retain
    rw [Call.run_bind hput, Call.run_bind (Call.run_modify _ _)]
    rfl
  refine ⟨((s.wrote m).install m).attach connection ⟨m.mailboxId, .allocator⟩, ?_, ?_⟩
  · unfold Relay.allocate
    rw [Call.run_bind (Call.run_get s), if_neg (by simp [h.enabled]),
      if_neg (by simp [hunattached]), if_neg hbusy]
    simp only [hchosen, hm]
    rw [hrun, hexpires]
  · have hnumbered : m.nameplate = some randomness.nameplate := hplate
    simp only [Relay.attach, Relay.install, hnumbered, hid]
    exact Finmap.lookup_insert _

theorem Vacant.withLimiter (h : s.Vacant randomness) (limiter : L) :
    Vacant { s with limiter } randomness :=
  ⟨h.nameplate, h.enabled, h.capacity, h.identifier, h.token⟩

/-! ### Runs -/

/-- The candidate of a reachable relay fits its machine word. -/
theorem Sound.candidate_le (h : s.Sound) :
    scanNameplates 1 (s.nameplates.keys.sort (· ≤ ·)) ≤ 1000000000 := by
  apply scanNameplates_le
  · intro n hn
    rw [Finset.mem_sort, Finmap.mem_keys] at hn
    obtain ⟨id, hid⟩ := Finmap.mem_iff.mp hn
    obtain ⟨m, hm, hplate⟩ := (h.nameplates n id).mp hid
    exact (h.recorded id m hm).nameplate n hplate
  · decide

variable [RateLimiter C L] {peerAddress : Bytes}

/-- The connection may allocate, and the store takes the new mailbox. -/
structure Eligible (s : Relay C L) (connection : ConnectionId) (peerAddress : Bytes)
    (now : UInt64) (ttlSeconds : Option ℕ) : Prop where
  through : (s.letThrough connection peerAddress now (.allocate 1 ttlSeconds)).isSome = true
  unattached : s.membershipOf connection = none
  lives : Lives now ttlSeconds
  store : ¬ s.Refuses

theorem Vacant.handle (h : s.Vacant randomness)
    (heligible : s.Eligible connection peerAddress now ttlSeconds) :
    ∃ s', handle connection peerAddress now randomness (.allocate 1 ttlSeconds) s =
      .ok [route connection (.allocated randomness.mailboxId randomness.membershipToken
        (some randomness.nameplate)
        (UInt64.ofNat (now.toNat + ttlSeconds.getD defaultTtlSeconds)))] s' ∧
      s'.nameplates.lookup randomness.nameplate = some randomness.mailboxId := by
  have hthrough := heligible.through
  unfold letThrough at hthrough
  unfold Relay.handle
  cases hcheck : RateLimiter.check (operation (.allocate 1 ttlSeconds)) peerAddress now
      s.limiter with
  | error e limiter => simp [hcheck] at hthrough
  | ok decision limiter =>
    cases decision with
    | cooldown retryAt => simp [hcheck] at hthrough
    | allowed remaining =>
      simp only [hcheck] at hthrough ⊢
      split_ifs at hthrough with hunbound
      · cases hthrough
      · rw [if_neg hunbound]
        exact (h.withLimiter limiter).allocate heligible.unattached heligible.lives
          heligible.store

/-- In every state a relay reaches, the nameplate offered is the least positive one that is
free, and none is offered exactly when all are occupied. An allocation that takes the offer
is answered with it, when its identifier, its token and a mailbox are free, and the
connection may allocate. -/
theorem nameplates_offered {config : RelayConfig C} {store : MailboxStore} {s₀ : Relay C L}
    (hstart : withStore config store = .ok s₀) (calls : List RelayCall) :
    let s := Runs.after serve s₀ calls
    (∀ n, s.firstAvailableNameplate = some n ↔
      IsLeast {n | 1 ≤ n ∧ n ∉ s.nameplates} n ∧ n ≤ 999999999) ∧
    (s.firstAvailableNameplate = none ↔ ∀ n, 1 ≤ n → n ≤ 999999999 → n ∈ s.nameplates) ∧
    scanNameplates 1 (s.nameplates.keys.sort (· ≤ ·)) ≤ 1000000000 ∧
    ∀ connection peerAddress now randomness ttlSeconds, s.Vacant randomness →
      s.Eligible connection peerAddress now ttlSeconds →
      ∃ s', handle connection peerAddress now randomness (.allocate 1 ttlSeconds) s =
        .ok [route connection (.allocated randomness.mailboxId randomness.membershipToken
          (some randomness.nameplate)
          (UInt64.ofNat (now.toNat + ttlSeconds.getD defaultTtlSeconds)))] s' ∧
        s'.nameplates.lookup randomness.nameplate = some randomness.mailboxId := by
  have hsound := run_sound (withStore_sound hstart).1 calls
  intro s
  refine ⟨fun n => firstAvailableNameplate_eq_some, firstAvailableNameplate_eq_none,
    hsound.candidate_le, ?_⟩
  intro connection peerAddress now randomness ttlSeconds hvacant heligible
  exact hvacant.handle heligible

end Nameplates

end Relay

/-! ### One mailbox, and its allocator still attached -/

section Sample

attribute [local instance] Primitives.transparent
attribute [local instance] RateLimiter.idle

namespace Relay

/-- Randomness with the first nameplate as its candidate. -/
def randomnessFirst : RelayRandomness := { randomnessSample 5 with nameplate := 1 }

theorem vacant_watched : watched.Vacant randomnessFirst := by
  constructor
  · decide +kernel
  · decide +kernel
  · decide +kernel
  · decide +kernel
  · decide +kernel

theorem eligible_watched : watched.Eligible 2 [] 0 none := by
  constructor
  · decide
  · decide
  · exact ⟨by decide, by decide, by decide⟩
  · have hfaults : watched.store.faults = [] := by decide
    intro hrefuses
    have hhead : watched.store.faults.head? = some true := hrefuses
    rw [hfaults] at hhead
    cases hhead

theorem nameplates_offered_watched : watched.Vacant randomnessFirst ∧
    watched.Eligible 2 [] 0 none ∧
    ∃ s', handle 2 [] 0 randomnessFirst (.allocate 1 none) watched =
      .ok [route 2 (.allocated randomnessFirst.mailboxId randomnessFirst.membershipToken
        (some randomnessFirst.nameplate) (UInt64.ofNat (0 + 600)))] s' ∧
      s'.nameplates.lookup randomnessFirst.nameplate = some randomnessFirst.mailboxId := by
  obtain ⟨-, -, -, hanswer⟩ := nameplates_offered (withStore_sample [])
    [.handle 1 [] 0 (randomnessSample 1) .bind,
      .handle 1 [] 0 (randomnessSample 1) (.allocate 0 none),
      .handle 2 [] 0 (randomnessSample 3) .bind]
  exact ⟨vacant_watched, eligible_watched,
    hanswer 2 [] 0 randomnessFirst none vacant_watched eligible_watched⟩

/-- The connection that is still attached gets no second mailbox, with everything free. -/
theorem attached_allocation_refused :
    withStore RelayConfig.sample ⟨∅, []⟩ = .ok (unloaded RelayConfig.sample () ⟨∅, []⟩) ∧
    watched.Vacant randomnessFirst ∧
    Runs.effects (handle 1 [] 0 randomnessFirst (.allocate 1 none) watched) =
      [route 1 (.error 409)] := by
  refine ⟨withStore_sample [], vacant_watched, ?_⟩
  decide

end Relay

end Sample
end CbclPairing
