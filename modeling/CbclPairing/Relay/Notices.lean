import CbclPairing.Relay.ServiceRuns

/-! Notices of closure: whom a call tells that it has ended a mailbox. A claim or an open
that finds its mailbox expired takes the routes out before it reads them. -/
namespace CbclPairing
open Codec Calls Tables

namespace Relay

variable {C L : Type} [Primitives] {s s' : Relay C L} {id : Octets 32} {m m' : Mailbox}
  {connection : ConnectionId} {now : UInt64} {randomness : RelayRandomness}
  {message : ClientMessage}

omit [Primitives] in
/-- How a live mailbox has ended between two states. -/
inductive Ended (s s' : Relay C L) (id : Octets 32) : CloseReason → Prop
  | terminal {m m' : Mailbox} {reason : CloseReason} : s.mailboxes.lookup id = some m →
      m.status.isTerminal = false → s'.mailboxes.lookup id = some m' →
      m'.status = .terminal reason → Ended s s' id reason
  | expired {m : Mailbox} : s.mailboxes.lookup id = some m → m.status.isTerminal = false →
      s'.mailboxes.lookup id = none → Ended s s' id .expired

omit [Primitives] in
/-- Whoever was attached to a mailbox the call has ended hears so once. -/
def Notified (s : Relay C L) (r : Reply C L) : Prop :=
  ∀ id reason, Ended s (Call.after r) id reason → ∀ side holder,
    s.routes.lookup ⟨id, side⟩ = some holder →
    (Runs.effects r).count (route holder (.closed reason)) = 1

/-! ### What has ended -/

omit [Primitives] in
theorem not_ended_of_same {reason : CloseReason}
    (hsame : s'.mailboxes.lookup id = s.mailboxes.lookup id) : ¬ Ended s s' id reason := by
  intro hended
  cases hended with
  | terminal hm hlive hm' hstatus =>
    rw [hsame, hm, Option.some.injEq] at hm'
    rw [hm', hstatus] at hlive
    cases hlive
  | expired hm hlive hnone =>
    rw [hsame, hm] at hnone
    cases hnone

omit [Primitives] in
theorem notified_of_same {r : Reply C L} (hsame : (Call.after r).mailboxes = s.mailboxes) :
    Notified s r := by
  intro id reason hended
  exact absurd hended (not_ended_of_same (by rw [hsame]))

omit [Primitives] in
theorem Ended.of_insert {j : Octets 32} {reason : CloseReason} (hended : Ended s s' j reason)
    (hmailboxes : s'.mailboxes = s.mailboxes.insert id m') :
    j = id ∧ m'.status = .terminal reason := by
  have hlookup : s'.mailboxes.lookup j = if j = id then some m' else s.mailboxes.lookup j := by
    rw [hmailboxes]
    exact Table.lookup_insert_if s.mailboxes id j m'
  by_cases hid : j = id
  · rw [if_pos hid] at hlookup
    cases hended with
    | terminal _ _ hm' hstatus =>
      rw [hlookup, Option.some.injEq] at hm'
      exact ⟨hid, hm' ▸ hstatus⟩
    | expired _ _ hnone =>
      rw [hlookup] at hnone
      cases hnone
  · rw [if_neg hid] at hlookup
    exact absurd hended (not_ended_of_same hlookup)

omit [Primitives] in
theorem Ended.of_erase {j : Octets 32} {reason : CloseReason} (hended : Ended s s' j reason)
    (hm : s.mailboxes.lookup id = some m) (hmailboxes : s'.mailboxes = s.mailboxes.erase id) :
    j = id ∧ reason = .expired ∧ m.status.isTerminal = false := by
  have hlookup : s'.mailboxes.lookup j = if j = id then none else s.mailboxes.lookup j := by
    rw [hmailboxes]
    exact Table.lookup_erase_if s.mailboxes id j
  by_cases hid : j = id
  · rw [if_pos hid] at hlookup
    cases hended with
    | terminal _ _ hm' =>
      rw [hlookup] at hm'
      cases hm'
    | expired hm' hlive =>
      rw [hid, hm, Option.some.injEq] at hm'
      exact ⟨hid, rfl, hm' ▸ hlive⟩
  · rw [if_neg hid] at hlookup
    exact absurd hended (not_ended_of_same hlookup)

omit [Primitives] in
/-- Deduplicated notices that hold every route are heard once each. -/
theorem count_deduplicateRoutes {messages : List RoutedMessage} {side : Membership}
    {holder : ConnectionId} {reason : CloseReason}
    (hroute : s.routes.lookup ⟨id, side⟩ = some holder)
    (hmem : ∀ x ∈ s.terminalRoutes id reason, x ∈ messages) :
    (deduplicateRoutes messages).count (route holder (.closed reason)) = 1 := by
  apply List.count_eq_one_of_mem (nodup_deduplicateRoutes messages)
  rw [mem_deduplicateRoutes]
  exact hmem _ (mem_terminalRoutes.mpr ⟨side, holder, hroute, rfl⟩)

/-! ### One command -/

/-- A claim or an open that would reap a live mailbox while another connection is attached
to it. -/
def Missed (s : Relay C L) (connection : ConnectionId) (now : UInt64)
    (randomness : RelayRandomness) (message : ClientMessage) : Prop :=
  ¬ s.Refuses ∧ memberKind message = none ∧ ∃ id c m side holder,
    s.addressed connection randomness message = some (id, c) ∧
    s.mailboxes.lookup id = some m ∧ m.status.isTerminal = false ∧ m.expiresAt ≤ now ∧
    s.routes.lookup ⟨id, side⟩ = some holder ∧
    (operation message = .openMailbox → holder ≠ connection)

theorem not_missed_of_unexpired (h : Unexpired s connection now randomness message) :
    ¬ Missed s connection now randomness message := by
  rintro ⟨_, _, id, c, m, _, _, haddressed, hm, _, hexpired, _⟩
  exact absurd (h id c m haddressed hm) (UInt64.not_lt.mpr hexpired)

theorem terminal_effects {c : MailboxCommand} {effects : List MailboxEffect}
    (h : Mailbox.Moves m c effects m') (hlive : m.status.isTerminal = false)
    {reason : CloseReason} (hstatus : m'.status = .terminal reason) :
    effects = m.deletions ++ [.terminal reason] := by
  obtain ⟨ending, -, rfl, rfl⟩ := h.ended_of_terminal hlive (by rw [hstatus]; rfl)
  have hsame : MailboxStatus.terminal ending = .terminal reason := hstatus
  rw [MailboxStatus.terminal.inj hsame]

omit [Primitives] in
/-- What is owed after a mailbox was taken out. -/
theorem notified_removed_iff (hm : s.mailboxes.lookup id = some m)
    {messages : List RoutedMessage} : Notified s (.ok messages (s.removed id m)) ↔
      (m.status.isTerminal = false → ∀ side holder, s.routes.lookup ⟨id, side⟩ = some holder →
        messages.count (route holder (.closed .expired)) = 1) := by
  constructor
  · intro hnotified hlive
    have hnone : (s.removed id m).mailboxes.lookup id = none := Finmap.lookup_erase id s.mailboxes
    exact hnotified id .expired (.expired hm hlive hnone)
  · intro howed j reason hended
    obtain ⟨rfl, rfl, hlive⟩ := hended.of_erase hm rfl
    exact howed hlive

theorem addressed_member (haddressed : ∃ target, s.addressed connection randomness message =
    some target) (hkind : memberKind message = none) : (operation message = .openMailbox) ∨
      (operation message = .claim ∧ s.membershipOf connection = none) := by
  obtain ⟨target, haddressed⟩ := haddressed
  cases message with
  | openMailbox => exact .inl rfl
  | claim | claimV2 =>
    right
    unfold addressed at haddressed
    split_ifs at haddressed with hrefused
    rw [not_or] at hrefused
    exact ⟨rfl, by simpa using hrefused.1⟩
  | put | ack | close => cases hkind
  | bind | allocate | allocateV2 | ping => cases haddressed

/-- An expiry is heard by everyone attached, unless a claim or an open has found it. -/
theorem notified_expired_iff (h : s.Sound) {c : MailboxCommand}
    (haddressed : s.addressed connection randomness message = some (id, c))
    (hm : s.mailboxes.lookup id = some m) (hexpired : m.expiresAt ≤ now)
    (hrefuses : ¬ s.Refuses) :
    Notified s (.ok (s.expiryMessages connection id m message) (s.removed id m)) ↔
      ¬ Missed s connection now randomness message := by
  have hmissed : Missed s connection now randomness message ↔ memberKind message = none ∧
      m.status.isTerminal = false ∧ ∃ side holder, s.routes.lookup ⟨id, side⟩ = some holder ∧
      (operation message = .openMailbox → holder ≠ connection) := by
    constructor
    · rintro ⟨_, hkind, id', c', m', side, holder, haddressed', hm', hlive, _, hroute, hother⟩
      rw [haddressed] at haddressed'
      obtain ⟨rfl, -⟩ := Prod.mk.inj (Option.some.inj haddressed')
      rw [hm] at hm'
      obtain rfl := Option.some.inj hm'
      exact ⟨hkind, hlive, side, holder, hroute, hother⟩
    · rintro ⟨hkind, hlive, side, holder, hroute, hother⟩
      exact ⟨hrefuses, hkind, id, c, m, side, holder, haddressed, hm, hlive, hexpired, hroute,
        hother⟩
  rw [notified_removed_iff hm, hmissed]
  cases hkind : memberKind message with
  | some kind =>
    simp only [reduceCtorEq, false_and, not_false_eq_true, iff_true]
    intro hlive side holder hroute
    have hmessages : s.expiryMessages connection id m message =
        deduplicateRoutes (s.terminalRoutes id .expired) := by
      rw [expiryMessages_of_memberKind hkind, hlive]
      rfl
    rw [hmessages]
    exact count_deduplicateRoutes hroute fun _ hmem => hmem
  | none =>
    have hhears : m.status.isTerminal = false → ∀ side holder,
        s.routes.lookup ⟨id, side⟩ = some holder →
        ((s.expiryMessages connection id m message).count (route holder (.closed .expired)) = 1 ↔
          operation message = .openMailbox ∧ holder = connection) := by
      intro hlive side holder hroute
      obtain hopen | ⟨hclaim, hnobody⟩ := addressed_member ⟨_, haddressed⟩ hkind
      · have hmessages : s.expiryMessages connection id m message =
            [route connection (.closed .expired)] := by
          cases message with
          | openMailbox => exact if_neg (by rw [hlive]; exact Bool.false_ne_true)
          | bind | allocate | claim | allocateV2 | claimV2 | put | ack | close | ping =>
            cases hopen
        rw [hmessages, List.count_singleton]
        by_cases hself : holder = connection
        · simp [hopen, hself]
        · have hne : route connection (.closed .expired) ≠ route holder (.closed .expired) :=
            fun hsame => hself (RoutedMessage.mk.inj hsame).1.symm
          simp [hne, hself]
      · have hother : holder ≠ connection := by
          rintro rfl
          have hheld := (h.inverse _ _).mp hroute
          rw [hnobody] at hheld
          cases hheld
        have hnone : (s.expiryMessages connection id m message).count
            (route holder (.closed .expired)) = 0 := by
          rw [List.count_eq_zero]
          intro hmem
          have hactor : holder = connection := by
            cases message with
            | claim =>
              dsimp only [expiryMessages] at hmem
              split_ifs at hmem <;> exact (RoutedMessage.mk.inj (List.mem_singleton.mp hmem)).1
            | claimV2 => exact (RoutedMessage.mk.inj (List.mem_singleton.mp hmem)).1
            | bind | allocate | openMailbox | allocateV2 | put | ack | close | ping =>
              cases hclaim
          exact hother hactor
        rw [hnone, hclaim]
        simp
    constructor
    · rintro howed ⟨-, hlive, side, holder, hroute, hother⟩
      obtain ⟨hopen, hself⟩ := (hhears hlive side holder hroute).mp (howed hlive side holder hroute)
      exact hother hopen hself
    · intro hheard hlive side holder hroute
      rw [hhears hlive side holder hroute]
      by_contra hnot
      refine hheard ⟨rfl, hlive, side, holder, hroute, ?_⟩
      exact fun hopen hself => hnot ⟨hopen, hself⟩

/-- A command tells everyone attached of the end it brings, but for a claim or an open that
finds its mailbox expired. -/
theorem Outcome.notified_iff {r : Reply C L}
    (hr : Outcome s connection now randomness message r) (h : s.Sound) :
    Notified s r ↔ ¬ Missed s connection now randomness message := by
  cases hr with
  | refused hrefuses =>
    exact iff_of_true (notified_of_same rfl) fun hmissed => hmissed.1 hrefuses
  | aborted hkind =>
    refine iff_of_true (notified_of_same rfl) fun hmissed => ?_
    rw [hmissed.2.1] at hkind
    cases hkind
  | replied hunexpired =>
    exact iff_of_true (notified_of_same rfl) (not_missed_of_unexpired hunexpired)
  | bound =>
    exact iff_of_true (notified_of_same rfl)
      (not_missed_of_unexpired (unexpired_of_none rfl))
  | @retained _ m _ hm _ _ _ hreply =>
    refine iff_of_true ?_ (not_missed_of_unexpired (unexpired_of_none ?_))
    · intro j reason hended
      have hwaiting := hm.fresh.2.1
      rw [(hended.of_insert rfl).2] at hwaiting
      cases hwaiting
    · cases hreply <;> rfl
  | @claimed _ id c m m' _ haddressed hm hlive hnow hmoves =>
    refine iff_of_true ?_ (not_missed_of_unexpired (unexpired_of_some haddressed ?_))
    · intro j reason hended
      have heffects := terminal_effects hmoves hlive (hended.of_insert rfl).2
      have hlast := congrArg List.getLast? heffects
      simp at hlast
    · intro m₀ hm₀
      obtain rfl := Option.some.inj (hm.symm.trans hm₀)
      exact hnow
  | @crowded _ id c m haddressed hm hlive hnow =>
    refine iff_of_true ?_ (not_missed_of_unexpired (unexpired_of_some haddressed ?_))
    · intro j reason hended side holder hroute
      obtain ⟨rfl, hstatus⟩ := hended.of_insert rfl
      obtain rfl := MailboxStatus.terminal.inj hstatus
      exact count_deduplicateRoutes hroute fun _ hmem => List.mem_append_left _ hmem
    · intro m₀ hm₀
      obtain rfl := Option.some.inj (hm.symm.trans hm₀)
      exact hnow
  | @opened id token m membership hm hlive hnow =>
    refine iff_of_true ?_ (not_missed_of_unexpired (unexpired_of_some rfl ?_))
    · intro j reason hended
      rw [(hended.of_insert rfl).2] at hlive
      cases hlive
    · intro m₀ hm₀
      obtain rfl := Option.some.inj (hm.symm.trans hm₀)
      exact hnow
  | @member _ kind key m m' effects hkind hkey hm hlive hnow hmoves =>
    refine iff_of_true ?_ fun hmissed => ?_
    · intro j reason hended side holder hroute
      obtain ⟨rfl, hstatus⟩ := hended.of_insert rfl
      have heffects := terminal_effects hmoves hlive hstatus
      refine count_deduplicateRoutes hroute fun x hmem => ?_
      rw [heffects, flatMap_dispatch_deletions]
      simp [dispatch, hmem]
    · rw [hmissed.2.1] at hkind
      cases hkind
  | expired haddressed hm hexpired hrefuses =>
    exact notified_expired_iff h haddressed hm hexpired hrefuses

/-! ### The sweep -/

section Sweeps

omit [Primitives]

/-- The entries a sweep is to take out, in its order. -/
def due (s : Relay C L) (now : UInt64) : List (UInt64 × Octets 32) :=
  (s.expiries.sort expiryLe).takeWhile (·.1 ≤ now)

/-- A live mailbox that somebody is attached to. -/
def Watched (s : Relay C L) (id : Octets 32) : Prop := ∃ m side holder,
  s.mailboxes.lookup id = some m ∧ m.status.isTerminal = false ∧
  s.routes.lookup ⟨id, side⟩ = some holder

/-- How many writes the store takes before it refuses one. -/
def patience (s : Relay C L) : ℕ := s.store.faults.idxOf true

/-- The store refuses a write of the sweep. -/
def Stops (s : Relay C L) (now : UInt64) : Prop :=
  s.patience < s.store.faults.length ∧ s.patience < (s.due now).length

/-- The store refuses a write after the sweep has taken out a watched mailbox. -/
def Lost (s : Relay C L) (now : UInt64) : Prop :=
  s.Stops now ∧ ∃ entry ∈ (s.due now).take s.patience, s.Watched entry.2

theorem due_removed (hfirst : first expiryLe s.expiries = some (m.expiresAt, id))
    (hdue : m.expiresAt ≤ now) :
    s.due now = (m.expiresAt, id) :: (s.removed id m).due now := by
  unfold due
  rw [sort_eq_first_cons expiryLe hfirst, List.takeWhile_cons_of_pos (by simpa using hdue),
    expiries_removed]

theorem patience_removed (hrefuses : ¬ s.Refuses) (id : Octets 32) (m : Mailbox) :
    (s.patience < s.store.faults.length ↔
      (s.removed id m).patience < (s.removed id m).store.faults.length) ∧
    (s.patience < s.store.faults.length → s.patience = (s.removed id m).patience + 1) := by
  have hfaults : (s.removed id m).store.faults = s.store.faults.tail := rfl
  unfold Refuses at hrefuses
  unfold patience
  rw [hfaults]
  cases hlist : s.store.faults with
  | nil => simp
  | cons fault faults =>
    rw [hlist] at hrefuses
    cases fault with
    | true => simp at hrefuses
    | false => simp

theorem stops_removed (hfirst : first expiryLe s.expiries = some (m.expiresAt, id))
    (hdue : m.expiresAt ≤ now) (hrefuses : ¬ s.Refuses) :
    s.Stops now ↔ (s.removed id m).Stops now := by
  obtain ⟨hiff, hpatience⟩ := patience_removed hrefuses id m
  unfold Stops
  rw [due_removed hfirst hdue, List.length_cons, ← hiff]
  constructor
  · rintro ⟨hfaults, hlength⟩
    have hnext := hpatience hfaults
    exact ⟨hfaults, by omega⟩
  · rintro ⟨hfaults, hlength⟩
    have hnext := hpatience hfaults
    exact ⟨hfaults, by omega⟩

theorem watched_removed {j : Octets 32} (hj : j ≠ id) :
    (s.removed id m).Watched j ↔ s.Watched j := by
  have hmailbox : (s.removed id m).mailboxes.lookup j = s.mailboxes.lookup j :=
    Finmap.lookup_erase_ne hj
  have hroute : ∀ side, (s.removed id m).routes.lookup ⟨j, side⟩ = s.routes.lookup ⟨j, side⟩ := by
    intro side
    rw [lookup_removed, if_neg hj]
  simp only [Watched, hmailbox, hroute]

theorem Ended.congr {s₁ : Relay C L} {reason : CloseReason}
    (hsame : s₁.mailboxes.lookup id = s.mailboxes.lookup id) :
    Ended s₁ s' id reason ↔ Ended s s' id reason := by
  constructor
  · intro hended
    cases hended with
    | terminal hm => exact .terminal (hsame ▸ hm) ‹_› ‹_› ‹_›
    | expired hm => exact .expired (hsame ▸ hm) ‹_› ‹_›
  · intro hended
    cases hended with
    | terminal hm => exact .terminal (hsame.symm ▸ hm) ‹_› ‹_› ‹_›
    | expired hm => exact .expired (hsame.symm ▸ hm) ‹_› ‹_›

/-- A sweep only takes mailboxes out. -/
theorem Swept.retained {r : Reply C L} (hr : Swept now s r) {j : Octets 32} {m : Mailbox}
    (hm : (Call.after r).mailboxes.lookup j = some m) : s.mailboxes.lookup j = some m := by
  induction hr with
  | done => exact hm
  | refused => exact hm
  | @reaped s id _ _ _ _ _ _ _ ih =>
    rw [after_mapped] at hm
    have hbefore : (s.mailboxes.erase id).lookup j = some m := ih hm
    rw [Table.lookup_erase_if] at hbefore
    split_ifs at hbefore
    exact hbefore

/-- A sweep only tells connections that are attached. -/
theorem Swept.attached {r : Reply C L} (hr : Swept now s r) {x : RoutedMessage}
    (hx : x ∈ Runs.effects r) : ∃ key, s.routes.lookup key = some x.connection := by
  induction hr with
  | done => cases hx
  | refused => cases hx
  | @reaped s id m r _ _ _ _ _ ih =>
    cases r with
    | error e s' => cases hx
    | ok rest s' =>
      obtain hx | hx := List.mem_append.mp hx
      · obtain ⟨side, holder, hroute, rfl⟩ := mem_terminalRoutes.mp hx
        exact ⟨⟨id, side⟩, hroute⟩
      · obtain ⟨key, hkey⟩ := ih hx
        rw [lookup_removed] at hkey
        split_ifs at hkey
        exact ⟨key, hkey⟩

/-- A connection holds one route. -/
theorem Attached.route_unique (h : s.Attached) {key key' : SessionMembership}
    {holder : ConnectionId} (hkey : s.routes.lookup key = some holder)
    (hkey' : s.routes.lookup key' = some holder) : key = key' := by
  have hboth := (h.inverse key holder).mp hkey
  rw [(h.inverse key' holder).mp hkey'] at hboth
  exact (Option.some.inj hboth).symm

theorem nodup_terminalRoutes (h : s.Attached) (id : Octets 32) (reason : CloseReason) :
    (s.terminalRoutes id reason).Nodup := by
  cases hallocator : s.routes.lookup ⟨id, .allocator⟩ with
  | none => cases hclaimant : s.routes.lookup ⟨id, .claimant⟩ <;>
      simp [terminalRoutes, hallocator, hclaimant]
  | some first =>
    cases hclaimant : s.routes.lookup ⟨id, .claimant⟩ with
    | none => simp [terminalRoutes, hallocator, hclaimant]
    | some second =>
      have hne : first ≠ second := by
        rintro rfl
        cases h.route_unique hallocator hclaimant
      simp [terminalRoutes, hallocator, hclaimant, route, hne]

theorem count_terminalRoutes (h : s.Attached) {side : Membership} {holder : ConnectionId}
    (hroute : s.routes.lookup ⟨id, side⟩ = some holder) (reason : CloseReason) :
    (s.terminalRoutes id reason).count (route holder (.closed reason)) = 1 :=
  List.count_eq_one_of_mem (nodup_terminalRoutes h id reason)
    (mem_terminalRoutes.mpr ⟨side, holder, hroute, rfl⟩)

end Sweeps

theorem ne_of_mem_due (h : (s.removed id m).Sound) {entry : UInt64 × Octets 32}
    (hmem : entry ∈ (s.removed id m).due now) : entry.2 ≠ id := by
  have hentry := (Finset.mem_sort _).mp ((List.takeWhile_prefix _).mem hmem)
  obtain ⟨m', hm', -⟩ := (h.expiries entry.1 entry.2).mp hentry
  intro hid
  have hnone : (s.removed id m).mailboxes.lookup id = none := Finmap.lookup_erase id s.mailboxes
  rw [hid, hnone] at hm'
  cases hm'

/-- What a sweep loses is what it loses after its first removal, or that one. -/
theorem lost_removed (h : (s.removed id m).Sound)
    (hfirst : first expiryLe s.expiries = some (m.expiresAt, id)) (hdue : m.expiresAt ≤ now)
    (hrefuses : ¬ s.Refuses) : s.Lost now ↔
      (s.removed id m).Stops now ∧ (s.Watched id ∨ (s.removed id m).Lost now) := by
  have hstops := stops_removed (m := m) hfirst hdue hrefuses
  have hwatched : s.Stops now → ((∃ entry ∈ (s.due now).take s.patience, s.Watched entry.2) ↔
      s.Watched id ∨ ∃ entry ∈ ((s.removed id m).due now).take (s.removed id m).patience,
        (s.removed id m).Watched entry.2) := by
    intro hs
    rw [due_removed hfirst hdue, (patience_removed hrefuses id m).2 hs.1, List.take_succ_cons]
    simp only [List.mem_cons, exists_eq_or_imp]
    refine or_congr_right (exists_congr fun entry => and_congr_right fun hmem => ?_)
    exact (watched_removed (ne_of_mem_due h (List.mem_of_mem_take hmem))).symm
  unfold Lost
  constructor
  · rintro ⟨hs, hentry⟩
    refine ⟨hstops.mp hs, ?_⟩
    exact ((hwatched hs).mp hentry).imp_right fun hrest => ⟨hstops.mp hs, hrest⟩
  · rintro ⟨hs, hrest⟩
    have hs' := hstops.mpr hs
    exact ⟨hs', (hwatched hs').mpr (hrest.imp_right fun hlost => hlost.2)⟩

omit [Primitives] in
/-- A removal whose sweep was stopped later is heard by nobody. -/
theorem notified_reaped_error {fault : Fault RelayError} (hm : s.mailboxes.lookup id = some m)
    (hgone : s'.mailboxes.lookup id = none) : Notified s (.error fault s') ↔
      ¬ s.Watched id ∧ Notified (s.removed id m) (.error fault s') := by
  constructor
  · intro hnotified
    constructor
    · rintro ⟨m', side, holder, hm', hlive, hroute⟩
      have hcount := hnotified id .expired (.expired hm' hlive hgone) side holder hroute
      cases hcount
    · intro j reason hended side holder hroute
      rw [lookup_removed] at hroute
      split_ifs at hroute with hid
      have hended' := (Ended.congr (Finmap.lookup_erase_ne hid)).mp hended
      exact hnotified j reason hended' side holder hroute
  · rintro ⟨hwatched, hnotified⟩ j reason hended side holder hroute
    by_cases hid : j = id
    · subst hid
      cases hended with
      | terminal hm' hlive => exact absurd ⟨_, side, holder, hm', hlive, hroute⟩ hwatched
      | expired hm' hlive => exact absurd ⟨_, side, holder, hm', hlive, hroute⟩ hwatched
    · have hended' : Ended (s.removed id m) s' j reason :=
        (Ended.congr (Finmap.lookup_erase_ne hid)).mpr hended
      refine hnotified j reason hended' side holder ?_
      rw [lookup_removed, if_neg hid]
      exact hroute

omit [Primitives] in
/-- A removal whose sweep ran through is heard by everyone attached, and so are the later
ones. -/
theorem notified_reaped_ok {rest : List RoutedMessage} (h : s.Attached)
    (hgone : s'.mailboxes.lookup id = none)
    (hattached : ∀ x ∈ rest, ∃ key, (s.removed id m).routes.lookup key = some x.connection)
    (hnotified : Notified (s.removed id m) (.ok rest s')) :
    Notified s (.ok (s.terminalRoutes id .expired ++ rest) s') := by
  intro j reason hended side holder hroute
  show (s.terminalRoutes id .expired ++ rest).count (route holder (.closed reason)) = 1
  rw [List.count_append]
  by_cases hid : j = id
  · subst hid
    have hreason : reason = .expired := by
      cases hended with
      | terminal _ _ hm' =>
        rw [Call.after_ok, hgone] at hm'
        cases hm'
      | expired => rfl
    -- nobody who is told of a later removal was attached to this mailbox
    have hlater : rest.count (route holder (.closed reason)) = 0 := by
      rw [List.count_eq_zero]
      intro hmem
      obtain ⟨key, hkey⟩ := hattached _ hmem
      rw [lookup_removed] at hkey
      split_ifs at hkey with hkeyid
      exact hkeyid (congrArg SessionMembership.mailboxId (h.route_unique hkey hroute))
    rw [hlater, hreason, count_terminalRoutes h hroute]
  · have hearlier : (s.terminalRoutes id .expired).count (route holder (.closed reason)) = 0 := by
      rw [List.count_eq_zero]
      intro hmem
      obtain ⟨side', holder', hroute', hsame⟩ := mem_terminalRoutes.mp hmem
      rw [← (RoutedMessage.mk.inj hsame).1] at hroute'
      exact hid (congrArg SessionMembership.mailboxId (h.route_unique hroute hroute'))
    have hended' : Ended (s.removed id m) s' j reason :=
      (Ended.congr (Finmap.lookup_erase_ne hid)).mpr hended
    have hroute' : (s.removed id m).routes.lookup ⟨j, side⟩ = some holder := by
      rw [lookup_removed, if_neg hid]
      exact hroute
    have hcount := hnotified j reason hended' side holder hroute'
    rw [Runs.effects_ok] at hcount
    rw [hearlier, hcount]

/-- A sweep that is stopped returns no notices; one that runs through misses nobody. -/
theorem Swept.notified_iff {r : Reply C L} (hr : Swept now s r) (h : s.Sound) :
    ((Call.verdict r).isOk = false ↔ s.Stops now) ∧ (Notified s r ↔ ¬ s.Lost now) := by
  induction hr with
  | @done s hlate =>
    have hnone : s.due now = [] := by
      unfold due
      cases hsorted : s.expiries.sort expiryLe with
      | nil => rfl
      | cons entry rest =>
        have hmem : entry ∈ s.expiries :=
          (Finset.mem_sort expiryLe).mp (by rw [hsorted]; exact List.mem_cons_self)
        rw [List.takeWhile_cons_of_neg]
        simpa using UInt64.not_le.mpr (hlate entry hmem)
    refine ⟨?_, iff_of_true (notified_of_same rfl) ?_⟩
    · simp [Stops, hnone, Except.isOk, Except.toBool]
    · simp [Lost, Stops, hnone]
  | @refused s id m hfirst hm hdue hrefuses =>
    have hpatience : s.patience = 0 ∧ 0 < s.store.faults.length := by
      have hhead : s.store.faults.head? = some true := hrefuses
      obtain ⟨rest, hrest⟩ := List.head?_eq_some_iff.mp hhead
      simp [patience, hrest]
    refine ⟨?_, iff_of_true (notified_of_same rfl) ?_⟩
    · simp [Stops, hpatience.1, hpatience.2, due_removed hfirst hdue, Except.isOk, Except.toBool]
    · simp [Lost, hpatience.1]
  | @reaped s id m r hfirst hm hdue hrefuses hrest ih =>
    have hsound := h.removed hm
    obtain ⟨hok, hnotified⟩ := ih hsound
    have hlost := lost_removed hsound hfirst hdue hrefuses
    have hgone : (Call.after r).mailboxes.lookup id = none := by
      cases hlookup : (Call.after r).mailboxes.lookup id with
      | none => rfl
      | some m' =>
        have hbefore := hrest.retained hlookup
        have hnone : (s.removed id m).mailboxes.lookup id = none :=
          Finmap.lookup_erase id s.mailboxes
        rw [hnone] at hbefore
        cases hbefore
    have hstops := stops_removed (m := m) hfirst hdue hrefuses
    cases r with
    | error e s' =>
      have hstopped := hok.mp rfl
      refine ⟨iff_of_true rfl (hstops.mpr hstopped), ?_⟩
      rw [Call.after_error] at hgone
      rw [hlost, and_iff_right hstopped, not_or]
      show Notified s (.error e s') ↔ _
      rw [notified_reaped_error hm hgone, hnotified]
    | ok rest s' =>
      have hran : ¬ (s.removed id m).Stops now := fun hstopped => (by cases hok.mpr hstopped)
      refine ⟨iff_of_false (fun hverdict => (by cases hverdict)) (mt hstops.mp hran), ?_⟩
      have hnothing : ¬ (s.removed id m).Lost now := fun hlater => hran hlater.1
      refine iff_of_true ?_ fun hlosing => hran (hlost.mp hlosing).1
      exact notified_reaped_ok h.toAttached hgone (fun x hx => hrest.attached hx)
        (hnotified.mpr hnothing)

/-! ### Runs -/

omit [Primitives] in
theorem notified_withLimiter {limiter : L} {r : Reply C L} :
    Notified { s with limiter } r ↔ Notified s r := by
  have hended : ∀ id reason, Ended { s with limiter } (Call.after r) id reason ↔
      Ended s (Call.after r) id reason := fun _ _ => Ended.congr rfl
  simp only [Notified, hended]

variable [RateLimiter C L]

/-- A message that is let through and misses somebody. -/
def Overlooks (s : Relay C L) (connection : ConnectionId) (peerAddress : Bytes) (now : UInt64)
    (randomness : RelayRandomness) (message : ClientMessage) : Prop :=
  (s.letThrough connection peerAddress now message).isSome = true ∧
    Missed s connection now randomness message

theorem handle_notified_iff (h : s.Sound) (connection : ConnectionId) (peerAddress : Bytes)
    (now : UInt64) (randomness : RelayRandomness) (message : ClientMessage) :
    Notified s (handle connection peerAddress now randomness message s) ↔
      ¬ s.Overlooks connection peerAddress now randomness message := by
  have hhandled := handle_handled h connection peerAddress now randomness message
  generalize handle connection peerAddress now randomness message s = r at hhandled
  cases hhandled with
  | limited hthrough =>
    exact iff_of_true (notified_of_same rfl) (by simp [Overlooks, hthrough])
  | turnedAway hthrough =>
    exact iff_of_true (notified_of_same rfl) (by simp [Overlooks, hthrough])
  | @ran limiter _ hthrough houtcome =>
    have hiff := houtcome.notified_iff (h.withLimiter limiter)
    rw [notified_withLimiter] at hiff
    rw [Overlooks, hthrough, Option.isSome_some, eq_self_iff_true, true_and]
    exact hiff

omit [Primitives] in
/-- A sweep that the limiter lets run, and that the store stops after it has taken out a
watched mailbox. -/
def SweepLoses (s : Relay C L) (now : UInt64) : Prop :=
  (Call.verdict (RateLimiter.sweepIfDue now s.limiter)).isOk = true ∧ s.Lost now

theorem sweep_notified_iff (h : s.Sound) (now : UInt64) :
    Notified s (sweep now s) ↔ ¬ s.SweepLoses now := by
  unfold sweep SweepLoses
  cases hsweep : RateLimiter.sweepIfDue now s.limiter with
  | error e limiter =>
    exact iff_of_true (notified_of_same rfl) fun hloses => (by cases hloses.1)
  | ok u limiter =>
    have hlimited := h.withLimiter limiter
    have hswept : Swept now _ _ :=
      sweepLoop_swept hlimited (s.expiries.card + 1) (Nat.lt_succ_self _)
    have hiff := (hswept.notified_iff hlimited).2
    rw [notified_withLimiter] at hiff
    rw [and_iff_right (by rfl)]
    exact hiff

/-- In every state a relay reaches, a message it handles tells everyone attached of the end it
brings, exactly when it is not a claim or an open that finds a mailbox expired with somebody
else attached; and a sweep does, exactly when the store does not stop it after it has taken
out a live mailbox with somebody attached. -/
theorem closure_notified_iff {config : RelayConfig C} {store : MailboxStore} {s₀ : Relay C L}
    (hstart : withStore config store = .ok s₀) (calls : List RelayCall) :
    let s := Runs.after serve s₀ calls
    (∀ connection peerAddress now randomness message,
      Notified s (handle connection peerAddress now randomness message s) ↔
        ¬ s.Overlooks connection peerAddress now randomness message) ∧
    ∀ now, Notified s (sweep now s) ↔ ¬ s.SweepLoses now := by
  have hsound := run_sound (withStore_sound hstart).1 calls
  exact ⟨handle_notified_iff hsound, sweep_notified_iff hsound⟩

end Relay

/-! ### A mailbox that expires with its allocator attached -/

section Sample

attribute [local instance] Primitives.transparent
attribute [local instance] RateLimiter.idle

namespace Relay

theorem closure_notified_iff_sample :
    (∀ connection peerAddress now randomness message, Notified (afterSample [false])
      (handle connection peerAddress now randomness message (afterSample [false])) ↔
      ¬ (afterSample [false]).Overlooks connection peerAddress now randomness message) ∧
    ∀ now, Notified (afterSample [false]) (sweep now (afterSample [false])) ↔
      ¬ (afterSample [false]).SweepLoses now :=
  closure_notified_iff (withStore_sample [false]) RelayCall.sample

def randomnessSample (n : UInt8) : RelayRandomness :=
  ⟨⟨List.replicate 32 n, by simp⟩, ⟨List.replicate 32 (n + 1), by simp⟩, 17⟩

/-- The first connection allocates a mailbox that lives for ten minutes; the second only
binds. -/
def watched : Relay ℕ Unit :=
  Runs.after serve (unloaded RelayConfig.sample () ⟨∅, []⟩)
    [.handle 1 [] 0 (randomnessSample 1) .bind,
      .handle 1 [] 0 (randomnessSample 1) (.allocate 0 none),
      .handle 2 [] 0 (randomnessSample 3) .bind]

/-- The second connection claims the mailbox when it has expired, and the first one, still
attached, hears nothing. -/
theorem expired_claim_overlooks :
    withStore RelayConfig.sample ⟨∅, []⟩ = .ok (unloaded RelayConfig.sample () ⟨∅, []⟩) ∧
    ¬ Notified watched (handle 2 [] 600 (randomnessSample 3)
      (.claim (.direct (randomnessSample 1).mailboxId)) watched) := by
  refine ⟨withStore_sample [], ?_⟩
  intro hnotified
  have hwaiting : (watched.mailboxes.lookup (randomnessSample 1).mailboxId).map
      Mailbox.status = some .waiting := by decide
  obtain ⟨m, hm, hstatus⟩ := Option.map_eq_some_iff.mp hwaiting
  have hgone : ((Call.after (handle 2 [] 600 (randomnessSample 3)
      (.claim (.direct (randomnessSample 1).mailboxId)) watched)).mailboxes.lookup
      (randomnessSample 1).mailboxId).isNone = true := by decide
  have hroute : watched.routes.lookup ⟨(randomnessSample 1).mailboxId, .allocator⟩ =
      some 1 := by decide
  have hcount := hnotified _ .expired
    (.expired hm (by rw [hstatus]; rfl) (Option.isNone_iff_eq_none.mp hgone)) .allocator 1 hroute
  have hsilent : (Runs.effects (handle 2 [] 600 (randomnessSample 3)
      (.claim (.direct (randomnessSample 1).mailboxId)) watched)).count
      (route 1 (.closed .expired)) = 0 := by decide
  rw [hsilent] at hcount
  cases hcount

end Relay

end Sample
end CbclPairing
