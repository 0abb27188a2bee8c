import CbclPairing.Relay.Isolation
import CbclPairing.Relay.LimiterBounds
import CbclPairing.Relay.Notices

/-! A sweep that the store does not stop: every due mailbox is taken out, whoever was
attached to it is told, and nothing else changes. -/
namespace CbclPairing
open Codec Calls Tables

namespace Relay

section Sweeps

variable {C L : Type} {s s' : Relay C L} {id : Octets 32} {m : Mailbox} {now : UInt64}

/-- A retained mailbox has reached its expiry. -/
def Due (s : Relay C L) (now : UInt64) (id : Octets 32) : Prop :=
  ∃ m, s.mailboxes.lookup id = some m ∧ m.expiresAt ≤ now

/-- The store takes every write to come. -/
def Unfailing (s : Relay C L) : Prop := ∀ fault ∈ s.store.faults, fault = false

theorem Unfailing.not_refuses (h : s.Unfailing) : ¬ s.Refuses := by
  intro hrefuses
  cases h true (List.mem_of_mem_head? hrefuses)

theorem Unfailing.removed (h : s.Unfailing) (id : Octets 32) (m : Mailbox) :
    (s.removed id m).Unfailing :=
  fun fault hfault => h fault (List.mem_of_mem_tail hfault)

theorem lookup_mailboxes_removed (j : Octets 32) : (s.removed id m).mailboxes.lookup j =
    if j = id then none else s.mailboxes.lookup j :=
  Table.lookup_erase_if s.mailboxes id j

theorem due_removed_iff {j : Octets 32} :
    (s.removed id m).Due now j ↔ j ≠ id ∧ s.Due now j := by
  unfold Due
  simp only [lookup_mailboxes_removed]
  by_cases hj : j = id
  · simp [hj]
  · simp [hj]

/-- What a complete sweep comes to. -/
structure Complete (now : UInt64) (s s' : Relay C L) (messages : List RoutedMessage) : Prop where
  mailboxes : ∀ j m, s'.mailboxes.lookup j = some m ↔
    s.mailboxes.lookup j = some m ∧ now < m.expiresAt
  records : ∀ j, ¬ s.Due now j → s'.store.records.lookup j = s.store.records.lookup j
  routes : ∀ key, ¬ s.Due now key.mailboxId → s'.routes.lookup key = s.routes.lookup key
  nodup : messages.Nodup
  told : ∀ x, x ∈ messages ↔ ∃ key, s.Due now key.mailboxId ∧
    s.routes.lookup key = some x.connection ∧ x.message = .closed .expired

theorem complete_done (h : ∀ entry ∈ s.expiries, now < entry.1)
    (hexpiries : ∀ j m, s.mailboxes.lookup j = some m → (m.expiresAt, j) ∈ s.expiries) :
    Complete now s s [] := by
  have hlive : ∀ j m, s.mailboxes.lookup j = some m → now < m.expiresAt :=
    fun j m hm => h _ (hexpiries j m hm)
  have hnot : ∀ j, ¬ s.Due now j := by
    rintro j ⟨m, hm, hdue⟩
    exact absurd (hlive j m hm) (UInt64.not_lt.mpr hdue)
  refine ⟨?_, fun _ _ => rfl, fun _ _ => rfl, List.nodup_nil, ?_⟩
  · intro j m
    exact ⟨fun hm => ⟨hm, hlive j m hm⟩, And.left⟩
  · intro x
    constructor
    · intros
      contradiction
    · rintro ⟨key, hdue, -⟩
      exact absurd hdue (hnot _)

theorem Complete.reaped {messages : List RoutedMessage} (h : s.Attached)
    (hm : s.mailboxes.lookup id = some m) (hdue : m.expiresAt ≤ now)
    (hrest : Complete now (s.removed id m) s' messages) :
    Complete now s s' (s.terminalRoutes id .expired ++ messages) := by
  have hself : s.Due now id := ⟨m, hm, hdue⟩
  refine ⟨?_, ?_, ?_, ?_, ?_⟩
  · intro j m'
    rw [hrest.mailboxes, lookup_mailboxes_removed]
    by_cases hj : j = id
    · subst hj
      simp only [if_true, reduceCtorEq, false_and, false_iff, not_and, UInt64.not_lt]
      intro hm'
      rwa [← Option.some.inj (hm.symm.trans hm')]
    · rw [if_neg hj]
  · intro j hj
    have hne : j ≠ id := fun hid => hj (hid ▸ hself)
    rw [hrest.records j fun hdue' => hj (due_removed_iff.mp hdue').2]
    exact (Table.lookup_erase_if s.store.records id j).trans (if_neg hne)
  · intro key hkey
    have hne : key.mailboxId ≠ id := fun hid => hkey (hid ▸ hself)
    rw [hrest.routes key fun hdue' => hkey (due_removed_iff.mp hdue').2, lookup_removed,
      if_neg hne]
  · apply List.Nodup.append (nodup_terminalRoutes h id .expired) hrest.nodup
    intro x hx hx'
    obtain ⟨side, holder, hroute, rfl⟩ := mem_terminalRoutes.mp hx
    obtain ⟨key, -, hroute', -⟩ := (hrest.told _).mp hx'
    rw [lookup_removed] at hroute'
    split_ifs at hroute' with hid
    exact hid (congrArg SessionMembership.mailboxId (h.route_unique hroute' hroute))
  · intro x
    rw [List.mem_append, mem_terminalRoutes, hrest.told]
    constructor
    · rintro (⟨side, holder, hroute, rfl⟩ | ⟨key, hkey, hroute, hx⟩)
      · exact ⟨⟨id, side⟩, hself, hroute, rfl⟩
      · rw [lookup_removed] at hroute
        split_ifs at hroute
        exact ⟨key, (due_removed_iff.mp hkey).2, hroute, hx⟩
    · rintro ⟨⟨j, side⟩, hkey, hroute, hx⟩
      by_cases hj : j = id
      · subst hj
        obtain ⟨connection, message⟩ := x
        exact .inl ⟨side, connection, hroute, by rw [← show message = _ from hx]; rfl⟩
      · refine .inr ⟨⟨j, side⟩, due_removed_iff.mpr ⟨hj, hkey⟩, ?_, hx⟩
        rw [lookup_removed, if_neg hj]
        exact hroute

theorem Swept.complete [Primitives] {r : Reply C L} (hr : Swept now s r) (h : s.Sound)
    (hstore : s.Unfailing) : ∃ messages s', r = .ok messages s' ∧ Complete now s s' messages := by
  induction hr with
  | @done s hlive =>
    refine ⟨[], s, rfl, complete_done hlive ?_⟩
    intro j m hm
    exact (h.expiries m.expiresAt j).mpr ⟨m, hm, rfl⟩
  | refused _ _ _ hrefuses => exact absurd hrefuses hstore.not_refuses
  | @reaped s id m r _ hm hdue _ _ ih =>
    obtain ⟨messages, s', rfl, hrest⟩ := ih (h.removed hm) (hstore.removed id m)
    exact ⟨_, s', rfl, hrest.reaped h.toAttached hm hdue⟩

/-- A live mailbox stands as it stood: its record, its entries in every index, its routes, and
the connections attached to it. -/
structure Kept (s s' : Relay C L) (id : Octets 32) (m : Mailbox) : Prop where
  mailbox : s'.mailboxes.lookup id = some m
  record : s'.store.records.lookup id = s.store.records.lookup id
  nameplates : ∀ n, s'.nameplates.lookup n = some id ↔ s.nameplates.lookup n = some id
  hashes : ∀ hash ∈ m.membershipHashes, hash ∈ s.membershipHashes ∧ hash ∈ s'.membershipHashes
  expiries : ∀ expiresAt, (expiresAt, id) ∈ s'.expiries ↔ (expiresAt, id) ∈ s.expiries
  routes : ∀ side, s'.routes.lookup ⟨id, side⟩ = s.routes.lookup ⟨id, side⟩
  members : ∀ connection side, s'.membershipOf connection = some ⟨id, side⟩ ↔
    s.membershipOf connection = some ⟨id, side⟩

theorem Complete.kept [Primitives] {messages : List RoutedMessage}
    (h : Complete now s s' messages) (hsound : s.Sound) (hsound' : s'.Sound)
    (hm : s.mailboxes.lookup id = some m) (hlive : now < m.expiresAt) : Kept s s' id m := by
  have hm' : s'.mailboxes.lookup id = some m := (h.mailboxes id m).mpr ⟨hm, hlive⟩
  have hsame : s'.mailboxes.lookup id = s.mailboxes.lookup id := hm'.trans hm.symm
  have hnot : ¬ s.Due now id := by
    rintro ⟨old, hold, hdue⟩
    rw [hm, Option.some.injEq] at hold
    exact absurd (hold ▸ hlive) (UInt64.not_lt.mpr hdue)
  have hroutes : ∀ side, s'.routes.lookup ⟨id, side⟩ = s.routes.lookup ⟨id, side⟩ :=
    fun side => h.routes ⟨id, side⟩ hnot
  constructor
  · exact hm'
  · exact h.records id hnot
  · intro n
    rw [hsound'.nameplates, hsound.nameplates, hsame]
  · intro hash hhash
    exact ⟨(hsound.hashes hash).mpr ⟨id, m, hm, hhash⟩,
      (hsound'.hashes hash).mpr ⟨id, m, hm', hhash⟩⟩
  · intro expiresAt
    rw [hsound'.expiries, hsound.expiries, hsame]
  · exact hroutes
  · intro connection side
    rw [← hsound'.inverse, ← hsound.inverse, hroutes side]

theorem Complete.withLimiter {limiter : L} {messages : List RoutedMessage}
    (h : Complete now { s with limiter } s' messages) : Complete now s s' messages :=
  ⟨h.mailboxes, h.records, h.routes, h.nodup, h.told⟩

end Sweeps

/-! ### Runs -/

section Runs

variable [Primitives] [PeerAddresses] {s : Relay LimiterConfig Limiter}

/-- The limiter lets every sweep run. -/
theorem sweep_complete (h : s.Sound) (hstore : s.Unfailing) (now : UInt64) :
    ∃ messages s', sweep now s = .ok messages s' ∧ s'.Sound ∧ Complete now s s' messages := by
  have hdue : ∃ limiter, RateLimiter.sweepIfDue now s.limiter = .ok () limiter := by
    have hready : ∃ dropped limiter,
        Limiter.sweepIfDue now s.limiter = .ok dropped limiter := by
      unfold Limiter.sweepIfDue
      dsimp only
      split_ifs
      · exact ⟨_, _, rfl⟩
      · exact ⟨_, _, rfl⟩
    obtain ⟨dropped, limiter, hready⟩ := hready
    exact ⟨limiter, by simp only [RateLimiter.sweepIfDue, hready]⟩
  obtain ⟨limiter, hlimiter⟩ := hdue
  have hlimited := h.withLimiter limiter
  have hswept : Swept now _ _ :=
    sweepLoop_swept hlimited (s.expiries.card + 1) (Nat.lt_succ_self _)
  obtain ⟨messages, s', heq, hcomplete⟩ := hswept.complete hlimited hstore
  have hsound := hswept.changes.sound hlimited
  rw [heq] at hsound
  refine ⟨messages, s', ?_, hsound, hcomplete.withLimiter⟩
  unfold sweep
  rw [hlimiter]
  exact heq

omit [Primitives] [PeerAddresses] in
/-- What a sweep is for: nothing due is retained after it, every live mailbox stands as it
stood, nothing else is retained, and exactly the connections that were attached to a due
mailbox are told, each of them once, that it expired. -/
structure Reaps (now : UInt64) (s s' : Relay LimiterConfig Limiter)
    (messages : List RoutedMessage) : Prop where
  ended : ∀ id m, s'.mailboxes.lookup id = some m → now < m.expiresAt
  kept : ∀ id m, s.mailboxes.lookup id = some m → now < m.expiresAt → Kept s s' id m
  retained : ∀ id m, s'.mailboxes.lookup id = some m → s.mailboxes.lookup id = some m
  nodup : messages.Nodup
  told : ∀ connection message, ⟨connection, message⟩ ∈ messages ↔
    message = .closed .expired ∧
      ∃ key, s.membershipOf connection = some key ∧ s.Due now key.mailboxId

/-- In every state a relay reaches, and at any time, a sweep that the store does not stop
ends, and reaps what is due and nothing else. -/
theorem sweep_reaps {config : RelayConfig LimiterConfig} {store : MailboxStore}
    {s₀ : Relay LimiterConfig Limiter} (hstart : withStore config store = .ok s₀)
    (calls : List RelayCall) (hstore : (Runs.after serve s₀ calls).Unfailing) (now : UInt64) :
    ∃ messages s', sweep now (Runs.after serve s₀ calls) = .ok messages s' ∧
      Reaps now (Runs.after serve s₀ calls) s' messages := by
  have hsound := run_sound (withStore_sound hstart).1 calls
  obtain ⟨messages, s', heq, hsound', hcomplete⟩ := sweep_complete hsound hstore now
  have htold : ∀ connection message, ⟨connection, message⟩ ∈ messages ↔
      message = .closed .expired ∧ ∃ key, (Runs.after serve s₀ calls).membershipOf connection =
        some key ∧ (Runs.after serve s₀ calls).Due now key.mailboxId := by
    intro connection message
    rw [hcomplete.told]
    constructor
    · rintro ⟨key, hdue, hroute, hmessage⟩
      exact ⟨hmessage, key, (hsound.inverse key connection).mp hroute, hdue⟩
    · rintro ⟨hmessage, key, hmember, hdue⟩
      exact ⟨key, hdue, (hsound.inverse key connection).mpr hmember, hmessage⟩
  have hlive := fun id m => hcomplete.mailboxes id m
  exact ⟨messages, s', heq, fun id m hm => ((hlive id m).mp hm).2,
    fun id m => hcomplete.kept hsound hsound', fun id m hm => ((hlive id m).mp hm).1,
    hcomplete.nodup, htold⟩

end Runs

end Relay

/-! ### A sweep at the expiry of an attached mailbox -/

section Sample

attribute [local instance] Primitives.transparent
attribute [local instance] PeerAddresses.transparent

def RelayConfig.long : RelayConfig LimiterConfig where
  operatorKey := fill 32 [7]
  limiter := .long
  capacity := ⟨2, 100000, 2⟩
  allocationEnabled := true

namespace Relay

theorem withStore_long : withStore RelayConfig.long ⟨∅, []⟩ =
    .ok (unloaded RelayConfig.long Limiter.long ⟨∅, []⟩) := by
  rw [withStore_eq_ok]
  refine ⟨Limiter.long, [], ?_, ?_, ?_, rfl, ?_, ?_⟩
  · decide
  · show (Limiter.new (fill 32 [7]) .long).toOption = some Limiter.long
    rw [Limiter.new_long]
    rfl
  · simp only [MailboxStore.load, Finmap.keys_empty, Finset.sort_empty]
    rfl
  · simp [unloaded, Table.size]
  · simp [unloaded]

/-- One connection allocates a mailbox that lives for ten minutes. -/
def allocating : List RelayCall :=
  [.handle 1 [1] 0 (randomnessSample 1) .bind,
    .handle 1 [1] 0 (randomnessSample 1) (.allocate 0 none)]

def attached : Relay LimiterConfig Limiter :=
  Runs.after serve (unloaded RelayConfig.long Limiter.long ⟨∅, []⟩) allocating

theorem sweep_reaps_attached : attached.membershipOf 1 =
      some ⟨(randomnessSample 1).mailboxId, .allocator⟩ ∧
    ∃ messages s', sweep 600 attached = .ok messages s' ∧ Reaps 600 attached s' messages := by
  have hfaults : attached.store.faults = [] := by decide +kernel
  refine ⟨by decide +kernel, sweep_reaps withStore_long allocating ?_ 600⟩
  intro fault hfault
  cases hfaults ▸ hfault

end Relay

end Sample
end CbclPairing
