import CbclPairing.Relay.ServiceRuns

/-! Isolation of mailboxes: a frame reaches only a connection attached to the mailbox
that keeps it, a connection is attached only by its own latest grant, and a handled
message touches at most one mailbox. -/
namespace CbclPairing
open Codec Calls Tables

namespace Relay

variable {C L : Type} [Primitives] {s s' : Relay C L} {id : Octets 32} {m m' : Mailbox}
  {connection : ConnectionId} {now : UInt64} {randomness : RelayRandomness}
  {message : ClientMessage}

/-! ### Replies -/

omit [Primitives] in
/-- The replies to an expiry close or refuse. -/
theorem expiryMessages_plain {x : RoutedMessage}
    (h : x ∈ s.expiryMessages connection id m message) : plain x.message = true := by
  have hroutes : x ∈ deduplicateRoutes (s.terminalRoutes id .expired) →
      plain x.message = true := by
    intro hmem
    rw [mem_deduplicateRoutes, mem_terminalRoutes] at hmem
    obtain ⟨membership, holder, -, rfl⟩ := hmem
    rfl
  unfold expiryMessages at h
  split at h <;> try split_ifs at h
  all_goals first
    | exact hroutes h
    | (obtain rfl := List.mem_singleton.mp h; rfl)
    | cases h

/-! ### Frames -/

omit [Primitives] in
/-- A connection is attached to a mailbox that keeps a body from the other member. -/
def Stored (s : Relay C L) (connection : ConnectionId) (seq : UInt8) (body : Bytes) : Prop :=
  ∃ key m f, s.membershipOf connection = some key ∧ s.mailboxes.lookup key.mailboxId = some m ∧
    f ∈ m.framesOf key.membership.opposite ∧ f.seq = seq ∧ f.body = some body

omit [Primitives] in
theorem frame_not_mem_confirmation {recipient : ConnectionId} {seq : UInt8} {body : Bytes}
    (effects : List MailboxEffect) (kind : MailboxCommandKind) :
    route recipient (.frame seq body) ∉ confirmation connection effects kind := by
  intro hmem
  cases kind with
  | put stored body' =>
    dsimp only [confirmation] at hmem
    split_ifs at hmem
    · cases (RoutedMessage.mk.inj (List.mem_singleton.mp hmem)).2
    · cases hmem
  | ack | close => cases hmem

omit [Primitives] in
/-- Only a delivery dispatches a frame, and to the holder of the recipient's route. -/
theorem frame_mem_dispatch {effect : MailboxEffect} {recipient : ConnectionId} {seq : UInt8}
    {body : Bytes} (h : route recipient (.frame seq body) ∈ s.dispatch id effect) :
    ∃ side, effect = .deliver side seq body ∧ s.routes.lookup ⟨id, side⟩ = some recipient := by
  cases effect with
  | deliver side peerSeq queued =>
    rw [dispatch, Option.mem_toList] at h
    obtain ⟨holder, hholder, hsame⟩ := Option.map_eq_some_iff.mp h
    obtain ⟨rfl, hframe⟩ := RoutedMessage.mk.inj hsame
    obtain ⟨rfl, rfl⟩ := ServerMessage.frame.inj hframe
    exact ⟨side, rfl, hholder⟩
  | terminal reason =>
    rw [dispatch, mem_terminalRoutes] at h
    obtain ⟨membership, holder, -, hsame⟩ := h
    cases (RoutedMessage.mk.inj hsame).2
  | _ => cases h

theorem Outcome.frames {r : Reply C L} (hr : Outcome s connection now randomness message r)
    (h : s.Sound) {recipient : ConnectionId} {seq : UInt8} {body : Bytes}
    (hmem : route recipient (.frame seq body) ∈ Runs.effects r) :
    (Call.after r).Stored recipient seq body := by
  cases hr with
  | refused | aborted => cases hmem
  | replied _ hplain =>
    obtain ⟨-, rfl⟩ := RoutedMessage.mk.inj (List.mem_singleton.mp hmem)
    cases hplain
  | bound => cases (RoutedMessage.mk.inj (List.mem_singleton.mp hmem)).2
  | retained _ _ _ _ hreply =>
    obtain ⟨-, rfl⟩ := RoutedMessage.mk.inj (List.mem_singleton.mp hmem)
    cases hreply
  | claimed _ _ _ _ _ hreply =>
    obtain ⟨-, rfl⟩ := RoutedMessage.mk.inj (List.mem_singleton.mp hmem)
    cases hreply
  | crowded =>
    rw [Runs.effects_ok, mem_deduplicateRoutes, List.mem_append, mem_terminalRoutes] at hmem
    obtain ⟨membership, holder, -, hsame⟩ | hmem := hmem
    · cases (RoutedMessage.mk.inj hsame).2
    · cases (RoutedMessage.mk.inj (List.mem_singleton.mp hmem)).2
  | @opened id token m membership hm =>
    obtain ⟨effect, heffect, hsent⟩ := List.mem_filterMap.mp hmem
    obtain ⟨f, hf, hdeliver⟩ := List.mem_filterMap.mp heffect
    obtain ⟨queued, hbody, rfl⟩ := Option.map_eq_some_iff.mp hdeliver
    obtain ⟨rfl, hframe⟩ := RoutedMessage.mk.inj (Option.some.inj hsent)
    obtain ⟨rfl, rfl⟩ := ServerMessage.frame.inj hframe
    refine ⟨⟨id, membership⟩, m, f, ?_, ?_, hf, rfl, hbody⟩
    · rw [Call.after_ok, membershipOf_attach (h.toAttached.replaced id m m), if_pos rfl]
    · exact Finmap.lookup_insert _
  | @member _ kind key m m' effects _ hkey hm _ _ hmoves =>
    rw [Runs.effects_ok, memberMessages, mem_deduplicateRoutes, List.mem_append] at hmem
    obtain hmem | hmem := hmem
    · exact absurd hmem (frame_not_mem_confirmation effects kind)
    obtain ⟨effect, heffect, hsent⟩ := List.mem_flatMap.mp hmem
    obtain ⟨side, rfl, hroute⟩ := frame_mem_dispatch hsent
    obtain ⟨f, hf, hseq, hbody⟩ := hmoves.delivered_queued heffect
    have hmember : s.membershipOf recipient = some ⟨key.mailboxId, side⟩ :=
      (h.inverse _ _).mp hroute
    exact ⟨⟨key.mailboxId, side⟩, m', f, hmember, Finmap.lookup_insert _, hf, hseq, hbody⟩
  | expired =>
    have hplain := expiryMessages_plain hmem
    cases hplain

/-! ### Everything else -/

omit [Primitives] in
/-- Nothing outside one mailbox has changed, but that the acting connection may have left
another one. -/
structure Elsewhere (s s' : Relay C L) (connection : ConnectionId) (id : Octets 32) : Prop where
  mailboxes : ∀ j, j ≠ id → s'.mailboxes.lookup j = s.mailboxes.lookup j
  expiries : ∀ expiresAt j, j ≠ id → ((expiresAt, j) ∈ s'.expiries ↔ (expiresAt, j) ∈ s.expiries)
  routes : ∀ key : SessionMembership, key.mailboxId ≠ id →
    s'.routes.lookup key = s.routes.lookup key ∨
      (s.routes.lookup key = some connection ∧ s'.routes.lookup key = none)
  members : ∀ x, x ≠ connection → s'.membershipOf x = s.membershipOf x ∨
    (∃ key, s.membershipOf x = some key ∧ key.mailboxId = id ∧ s'.membershipOf x = none)

omit [Primitives] in
theorem Elsewhere.refl (connection : ConnectionId) (id : Octets 32) :
    Elsewhere s s connection id :=
  ⟨fun _ _ => rfl, fun _ _ _ => .rfl, fun _ _ => .inl rfl, fun _ _ => .inl rfl⟩

omit [Primitives] in
theorem Elsewhere.trans {s'' : Relay C L} (h : Elsewhere s s' connection id)
    (h' : Elsewhere s' s'' connection id) : Elsewhere s s'' connection id where
  mailboxes j hj := (h'.mailboxes j hj).trans (h.mailboxes j hj)
  expiries expiresAt j hj := (h'.expiries expiresAt j hj).trans (h.expiries expiresAt j hj)
  routes key hkey := by
    obtain hsame | ⟨hown, hnone⟩ := h.routes key hkey
    · rw [← hsame]
      exact h'.routes key hkey
    · obtain hsame' | ⟨hown', -⟩ := h'.routes key hkey
      · exact .inr ⟨hown, hsame'.trans hnone⟩
      · rw [hnone] at hown'
        cases hown'
  members x hx := by
    obtain hsame | ⟨key, hkey, hid, hnone⟩ := h.members x hx
    · rw [← hsame]
      exact h'.members x hx
    · obtain hsame' | ⟨key', hkey', -⟩ := h'.members x hx
      · exact .inr ⟨key, hkey, hid, hsame'.trans hnone⟩
      · rw [hnone] at hkey'
        cases hkey'

omit [Primitives] in
theorem elsewhere_replaced (connection : ConnectionId) (id : Octets 32) (m m' : Mailbox) :
    Elsewhere s (s.replaced id m m') connection id where
  mailboxes _ hj := Finmap.lookup_insert_of_ne s.mailboxes hj
  expiries _ _ _ := .rfl
  routes _ _ := .inl rfl
  members _ _ := .inl rfl

omit [Primitives] in
theorem elsewhere_install (connection : ConnectionId) (m : Mailbox) :
    Elsewhere s ((s.wrote m).install m) connection m.mailboxId where
  mailboxes _ hj := Finmap.lookup_insert_of_ne s.mailboxes hj
  expiries expiresAt j hj := by
    show (expiresAt, j) ∈ insert (m.expiresAt, m.mailboxId) s.expiries ↔ _
    rw [Finset.mem_insert, Prod.mk.injEq]
    simp [hj]
  routes _ _ := .inl rfl
  members _ _ := .inl rfl

omit [Primitives] in
theorem elsewhere_attach (h : s.Attached) (connection : ConnectionId) (key : SessionMembership) :
    Elsewhere s (s.attach connection key) connection key.mailboxId where
  mailboxes _ _ := rfl
  expiries _ _ _ := .rfl
  routes k hk := by
    have hne : k ≠ key := fun hsame => hk (hsame ▸ rfl)
    rw [lookup_attach h, if_neg hne]
    split_ifs with hown
    · exact .inr ⟨(h.inverse k connection).mpr hown, rfl⟩
    · exact .inl rfl
  members x hx := by
    rw [membershipOf_attach h, if_neg hx]
    split_ifs with hheld
    · exact .inr ⟨key, hheld, rfl, rfl⟩
    · exact .inl rfl

omit [Primitives] in
theorem membershipOf_removed (h : s.Attached) (id : Octets 32) (m : Mailbox) (x : ConnectionId) :
    (s.removed id m).membershipOf x = s.membershipOf x ∨
      (∃ key, s.membershipOf x = some key ∧ key.mailboxId = id ∧
        (s.removed id m).membershipOf x = none) := by
  have hinverse : (s.unindexed id m).Inverse := h.inverse
  unfold removed
  rw [membershipOf_unroute (hinverse.unroute _), membershipOf_unroute hinverse]
  have hsame : (s.unindexed id m).membershipOf x = s.membershipOf x := rfl
  rw [hsame]
  by_cases hallocator : s.membershipOf x = some ⟨id, .allocator⟩
  · exact .inr ⟨_, hallocator, rfl, by simp [hallocator]⟩
  · by_cases hclaimant : s.membershipOf x = some ⟨id, .claimant⟩
    · exact .inr ⟨_, hclaimant, rfl, by simp [hclaimant]⟩
    · rw [if_neg hallocator, if_neg hclaimant]
      exact .inl rfl

omit [Primitives] in
theorem elsewhere_removed (h : s.Attached) (connection : ConnectionId) (id : Octets 32)
    (m : Mailbox) : Elsewhere s (s.removed id m) connection id where
  mailboxes _ hj := Finmap.lookup_erase_ne hj
  expiries expiresAt j hj := by
    rw [expiries_removed, Finset.mem_erase, ne_eq, Prod.mk.injEq]
    simp [hj]
  routes key hkey := by
    rw [lookup_removed, if_neg hkey]
    exact .inl rfl
  members x _ := membershipOf_removed h id m x

theorem Outcome.elsewhere {r : Reply C L} (hr : Outcome s connection now randomness message r)
    (h : s.Sound) : ∃ id, Elsewhere s (Call.after r) connection id := by
  have hidle : ∃ id, Elsewhere s s connection id := ⟨randomness.mailboxId, .refl connection _⟩
  cases hr with
  | refused => exact hidle.imp fun _ h => ⟨h.1, h.2, h.3, h.4⟩
  | aborted => exact hidle
  | replied => exact hidle
  | bound =>
    refine ⟨randomness.mailboxId, fun _ _ => rfl, fun _ _ _ => .rfl, fun _ _ => .inl rfl, ?_⟩
    intro x _
    exact .inl (membershipOf_boundBy connection x)
  | @retained _ m =>
    have hwrote : (s.wrote m).Attached := ⟨h.inverse, h.retained⟩
    exact ⟨m.mailboxId, (elsewhere_install connection m).trans
      (elsewhere_attach (hwrote.install m) connection ⟨m.mailboxId, .allocator⟩)⟩
  | @claimed _ id c m m' =>
    exact ⟨id, (elsewhere_replaced connection id m m').trans
      (elsewhere_attach (h.toAttached.replaced id m m') connection ⟨id, .claimant⟩)⟩
  | @crowded _ id c m => exact ⟨id, elsewhere_replaced connection id m _⟩
  | @opened id token m membership =>
    exact ⟨id, (elsewhere_replaced connection id m m).trans
      (elsewhere_attach (h.toAttached.replaced id m m) connection ⟨id, membership⟩)⟩
  | @member _ kind key m m' =>
    exact ⟨key.mailboxId, elsewhere_replaced connection key.mailboxId m m'⟩
  | @expired _ id c m => exact ⟨id, elsewhere_removed h.toAttached connection id m⟩

/-! ### Grants -/

/-- A call that succeeded in granting a connection a membership: an allocation or a claim of
the mailbox, or an open of it with the token of that side. -/
inductive Grants (s : Relay C L) (connection : ConnectionId) :
    RelayCall → Except (Fault RelayError) (List RoutedMessage) → SessionMembership → Prop
  | allocated {peerAddress : Bytes} {now expiresAt : UInt64} {randomness : RelayRandomness}
      {locatorMode : UInt8} {ttlSeconds nameplate : Option ℕ} :
      Grants s connection
        (.handle connection peerAddress now randomness (.allocate locatorMode ttlSeconds))
        (.ok [route connection
          (.allocated randomness.mailboxId randomness.membershipToken nameplate expiresAt)])
        ⟨randomness.mailboxId, .allocator⟩
  | allocatedV2 {peerAddress : Bytes} {now expiresAt : UInt64} {randomness : RelayRandomness}
      {id commitment : Octets 32} {ttlSeconds : Option ℕ} :
      Grants s connection
        (.handle connection peerAddress now randomness (.allocateV2 id commitment ttlSeconds))
        (.ok [route connection (.allocatedV2 id randomness.membershipToken expiresAt)])
        ⟨id, .allocator⟩
  | claimed {peerAddress : Bytes} {now expiresAt : UInt64} {randomness : RelayRandomness}
      {locator : Locator} {id : Octets 32} : s.resolve locator = some id →
      Grants s connection (.handle connection peerAddress now randomness (.claim locator))
        (.ok [route connection (.claimed id randomness.membershipToken expiresAt)])
        ⟨id, .claimant⟩
  | claimedV2 {peerAddress : Bytes} {now expiresAt : UInt64} {randomness : RelayRandomness}
      {id : Octets 32} {token : ClaimToken} :
      Grants s connection (.handle connection peerAddress now randomness (.claimV2 id token))
        (.ok [route connection (.claimedV2 id randomness.membershipToken expiresAt)])
        ⟨id, .claimant⟩
  | opened {peerAddress : Bytes} {now : UInt64} {randomness : RelayRandomness}
      {id token : Octets 32} {m : Mailbox} {side : Membership} {messages : List RoutedMessage} :
      s.mailboxes.lookup id = some m → m.membershipForHash (tokenHash token) = some side →
      (∀ x ∈ messages, ∃ seq body, x = route connection (.frame seq body)) →
      Grants s connection (.handle connection peerAddress now randomness (.openMailbox id token))
        (.ok messages) ⟨id, side⟩

/-- Replies that close or refuse grant nothing. -/
theorem not_grants_of_plain {x : ConnectionId} {call : RelayCall} {reply : RoutedMessage}
    {messages : List RoutedMessage} (hmem : reply ∈ messages) (hplain : plain reply.message = true)
    (key : SessionMembership) : ¬ Grants s x call (.ok messages) key := by
  intro hgrants
  cases hgrants with
  | allocated | allocatedV2 | claimed | claimedV2 =>
    obtain rfl := List.mem_singleton.mp hmem
    cases hplain
  | opened _ _ hframes =>
    obtain ⟨seq, body, rfl⟩ := hframes reply hmem
    cases hplain

/-- Only the connection that acts is granted anything. -/
theorem Grants.actor {x : ConnectionId} {peerAddress : Bytes}
    {verdict : Except (Fault RelayError) (List RoutedMessage)} {key : SessionMembership}
    (h : Grants s x (.handle connection peerAddress now randomness message) verdict key) :
    x = connection := by
  cases h <;> rfl

theorem Grants.kind {x : ConnectionId} {peerAddress : Bytes}
    {verdict : Except (Fault RelayError) (List RoutedMessage)} {key : SessionMembership}
    (h : Grants s x (.handle connection peerAddress now randomness message) verdict key) :
    memberKind message = none := by
  cases h <;> rfl

/-- Whoever is not a member hears of an expiry. -/
theorem expiryMessages_exists {c : MailboxCommand}
    (haddressed : s.addressed connection randomness message = some (id, c))
    (hkind : memberKind message = none) :
    ∃ reply, reply ∈ s.expiryMessages connection id m message := by
  cases message with
  | claim locator =>
    dsimp only [expiryMessages]
    split_ifs <;> exact ⟨_, List.mem_singleton.mpr rfl⟩
  | openMailbox target token =>
    dsimp only [expiryMessages]
    split_ifs <;> exact ⟨_, List.mem_singleton.mpr rfl⟩
  | claimV2 target token => exact ⟨_, List.mem_singleton.mpr rfl⟩
  | put | ack | close => cases hkind
  | bind | allocate | allocateV2 | ping => cases haddressed

/-- What a call makes of an attachment that is there afterwards: the call granted it, or it
was there before and the call granted its connection nothing. -/
def Granted (s : Relay C L) (call : RelayCall) (r : Reply C L) : Prop :=
  ∀ x key, (Call.after r).membershipOf x = some key →
    Grants s x call (Call.verdict r) key ∨
      (s.membershipOf x = some key ∧ ∀ other, ¬ Grants s x call (Call.verdict r) other)

omit [Primitives] in
/-- Who is attached after a connection attached. -/
theorem membershipOf_attach_eq_some (h : s.Attached) {key k : SessionMembership}
    {x : ConnectionId} (hx : (s.attach connection key).membershipOf x = some k) :
    x = connection ∧ k = key ∨ x ≠ connection ∧ s.membershipOf x = some k := by
  rw [membershipOf_attach h] at hx
  split_ifs at hx with hactor hheld
  · exact .inl ⟨hactor, (Option.some.inj hx).symm⟩
  · exact .inr ⟨hactor, hx⟩

theorem Outcome.granted {r : Reply C L} (hr : Outcome s connection now randomness message r)
    (h : s.Sound) (peerAddress : Bytes) :
    Granted s (.handle connection peerAddress now randomness message) r := by
  intro x key hx
  cases hr with
  | refused => exact .inr ⟨hx, fun _ hgrants => (by cases hgrants)⟩
  | aborted => exact .inr ⟨hx, fun _ hgrants => (by cases hgrants)⟩
  | replied _ hplain =>
    exact .inr ⟨hx, not_grants_of_plain (List.mem_singleton.mpr rfl) hplain⟩
  | bound =>
    rw [Call.after_ok, membershipOf_boundBy] at hx
    exact .inr ⟨hx, fun _ hgrants => (by cases hgrants)⟩
  | @retained _ m _ _ _ _ _ hreply =>
    have hwrote : (s.wrote m).Attached := ⟨h.inverse, h.retained⟩
    obtain ⟨rfl, rfl⟩ | ⟨hne, hbefore⟩ := membershipOf_attach_eq_some (hwrote.install m) hx
    · left
      cases hreply with
      | v1 hid =>
        rw [hid]
        exact .allocated
      | v2 => exact .allocatedV2
    · exact .inr ⟨hbefore, fun _ hgrants => hne hgrants.actor⟩
  | @claimed _ id c m m' _ _ _ _ _ _ hreply =>
    obtain ⟨rfl, rfl⟩ | ⟨hne, hbefore⟩ :=
      membershipOf_attach_eq_some (h.toAttached.replaced id m m') hx
    · left
      cases hreply with
      | v1 hresolve => exact .claimed hresolve
      | v2 => exact .claimedV2
    · exact .inr ⟨hbefore, fun _ hgrants => hne hgrants.actor⟩
  | @crowded _ id =>
    have hclosed : route connection (.closed .crowded) ∈ deduplicateRoutes
        (s.terminalRoutes id .crowded ++ [route connection (.closed .crowded)]) :=
      mem_deduplicateRoutes.mpr (List.mem_append_right _ (List.mem_singleton.mpr rfl))
    exact .inr ⟨hx, not_grants_of_plain hclosed rfl⟩
  | @opened id token m membership hm _ _ hhash =>
    obtain ⟨rfl, rfl⟩ | ⟨hne, hbefore⟩ :=
      membershipOf_attach_eq_some (h.toAttached.replaced id m m) hx
    · left
      refine .opened hm hhash ?_
      intro reply hmem
      obtain ⟨effect, heffect, hsent⟩ := List.mem_filterMap.mp hmem
      obtain ⟨f, -, hdeliver⟩ := List.mem_filterMap.mp heffect
      obtain ⟨queued, -, rfl⟩ := Option.map_eq_some_iff.mp hdeliver
      exact ⟨f.seq, queued, (Option.some.inj hsent).symm⟩
    · exact .inr ⟨hbefore, fun _ hgrants => hne hgrants.actor⟩
  | member hkind =>
    refine .inr ⟨hx, ?_⟩
    intro other hgrants
    rw [hgrants.kind] at hkind
    cases hkind
  | @expired _ id c m haddressed =>
    obtain hsame | ⟨-, -, -, hnone⟩ := membershipOf_removed h.toAttached id m x
    · refine .inr ⟨hsame.symm.trans hx, ?_⟩
      intro other hgrants
      obtain ⟨reply, hreply⟩ := expiryMessages_exists (m := m) haddressed hgrants.kind
      exact not_grants_of_plain hreply (expiryMessages_plain hreply) other hgrants
    · rw [Call.after_ok, hnone] at hx
      cases hx

/-! ### Runs -/

theorem grants_withLimiter {limiter : L} {x : ConnectionId} {call : RelayCall}
    {verdict : Except (Fault RelayError) (List RoutedMessage)} {key : SessionMembership} :
    Grants { s with limiter } x call verdict key ↔ Grants s x call verdict key := by
  constructor
  · intro h
    cases h with
    | allocated => exact .allocated
    | allocatedV2 => exact .allocatedV2
    | claimed hresolve => exact .claimed hresolve
    | claimedV2 => exact .claimedV2
    | opened hm hhash hframes => exact .opened hm hhash hframes
  · intro h
    cases h with
    | allocated => exact .allocated
    | allocatedV2 => exact .allocatedV2
    | claimed hresolve => exact .claimed hresolve
    | claimedV2 => exact .claimedV2
    | opened hm hhash hframes => exact .opened hm hhash hframes

omit [Primitives] in
theorem removed_detaches (h : s.Attached) {x : ConnectionId} {key : SessionMembership}
    (hx : (s.removed id m).membershipOf x = some key) : s.membershipOf x = some key := by
  obtain hsame | ⟨-, -, -, hnone⟩ := membershipOf_removed h id m x
  · exact hsame.symm.trans hx
  · rw [hnone] at hx
    cases hx

theorem Swept.detaches {r : Reply C L} (hr : Swept now s r) (h : s.Sound) {x : ConnectionId}
    {key : SessionMembership} (hx : (Call.after r).membershipOf x = some key) :
    s.membershipOf x = some key := by
  induction hr with
  | done => exact hx
  | refused => exact hx
  | reaped _ hm _ _ _ ih =>
    rw [after_mapped] at hx
    exact removed_detaches h.toAttached (ih (h.removed hm) hx)

theorem Closes.detaches {ids : List (Octets 32)} {r : Reply C L} (hr : Closes now ids s r)
    (h : s.Sound) {x : ConnectionId} {key : SessionMembership}
    (hx : (Call.after r).membershipOf x = some key) : s.membershipOf x = some key := by
  induction hr with
  | done => exact hx
  | skipped _ _ ih => exact ih h hx
  | refused => exact hx
  | reaped hm _ _ _ _ ih =>
    rw [after_mapped] at hx
    exact removed_detaches h.toAttached (ih (h.removed hm) hx)
  | closed hm _ _ _ _ ih =>
    rw [after_mapped] at hx
    exact ih ((h.closed hm).sound h) hx

variable [RateLimiter C L]

theorem serve_granted (h : s.Sound) (call : RelayCall) : Granted s call (serve call s) := by
  intro x key hx
  cases call with
  | handle connection peerAddress now randomness message =>
    have hhandled := handle_handled h connection peerAddress now randomness message
    change (Call.after (handle connection peerAddress now randomness message s)).membershipOf x =
      some key at hx
    show Grants s x _ (Call.verdict (handle connection peerAddress now randomness message s)) key ∨
      (_ ∧ ∀ other, ¬ Grants s x _
        (Call.verdict (handle connection peerAddress now randomness message s)) other)
    generalize handle connection peerAddress now randomness message s = r at hhandled hx
    cases hhandled with
    | limited => exact .inr ⟨hx, fun _ hgrants => (by cases hgrants)⟩
    | turnedAway => exact .inr ⟨hx, not_grants_of_plain (List.mem_singleton.mpr rfl) rfl⟩
    | @ran limiter _ _ houtcome =>
      have hgranted := houtcome.granted (h.withLimiter limiter) peerAddress x key hx
      simp only [grants_withLimiter] at hgranted
      exact hgranted
  | disconnect connection =>
    refine .inr ⟨?_, fun _ hgrants => (by cases hgrants)⟩
    change (Call.after (disconnect connection s)).membershipOf x = some key at hx
    unfold disconnect at hx
    cases hstate : s.connections.lookup connection with
    | none =>
      rw [hstate] at hx
      exact hx
    | some state =>
      rw [hstate] at hx
      change membershipIn (s.connections.erase connection) x = some key at hx
      rw [membershipIn_erase] at hx
      split_ifs at hx
      exact hx
  | sweep now =>
    refine .inr ⟨?_, fun _ hgrants => (by cases hgrants)⟩
    change (Call.after (sweep now s)).membershipOf x = some key at hx
    unfold sweep at hx
    cases hsweep : RateLimiter.sweepIfDue now s.limiter with
    | error e limiter =>
      rw [hsweep] at hx
      exact hx
    | ok u limiter =>
      rw [hsweep] at hx
      have hlimited := h.withLimiter limiter
      exact (sweepLoop_swept hlimited (s.expiries.card + 1) (Nat.lt_succ_self _)).detaches
        hlimited hx
  | disableAllocation => exact .inr ⟨hx, fun _ hgrants => (by cases hgrants)⟩
  | emergencyClose now =>
    refine .inr ⟨?_, fun _ hgrants => (by cases hgrants)⟩
    have hdisabled : s.disabled.Sound := Change.disabled.sound h
    change (Call.after (emergencyClose now s)).membershipOf x = some key at hx
    rw [emergencyClose_eq, after_mapped] at hx
    exact (closeEach_closes hdisabled now _).detaches hdisabled hx

/-- A membership that one call of a run granted a connection, with no later grant to it. -/
def LatestGrant (s₀ : Relay C L) (calls : List RelayCall) (x : ConnectionId)
    (key : SessionMembership) : Prop :=
  let granted := fun before call => Grants (Runs.after serve s₀ before) x call
    (Call.verdict (serve call (Runs.after serve s₀ before)))
  ∃ before call rest, calls = before ++ call :: rest ∧ granted before call key ∧
    ∀ mid later tail, rest = mid ++ later :: tail →
      ∀ other, ¬ granted (before ++ call :: mid) later other

theorem LatestGrant.concat {s₀ : Relay C L} {calls : List RelayCall} {x : ConnectionId}
    {key : SessionMembership} (h : LatestGrant s₀ calls x key) {call : RelayCall}
    (hnone : ∀ other, ¬ Grants (Runs.after serve s₀ calls) x call
      (Call.verdict (serve call (Runs.after serve s₀ calls))) other) :
    LatestGrant s₀ (calls ++ [call]) x key := by
  obtain ⟨before, grant, rest, rfl, hgrant, hlater⟩ := h
  refine ⟨before, grant, rest ++ [call], by simp, hgrant, ?_⟩
  intro mid later tail hsplit
  obtain rfl | ⟨tail, last, rfl⟩ := tail.eq_nil_or_concat
  · obtain ⟨rfl, hlast⟩ := List.append_inj' hsplit rfl
    obtain rfl := (List.cons.inj hlast).1
    exact hnone
  · rw [List.concat_eq_append, ← List.cons_append, ← List.append_assoc] at hsplit
    obtain ⟨hrest, -⟩ := List.append_inj' hsplit rfl
    exact hlater mid later tail hrest

theorem run_granted {s₀ : Relay C L} (h : s₀.Sound) (hnobody : s₀.connections = ∅)
    (calls : List RelayCall) (x : ConnectionId) (key : SessionMembership)
    (hx : (Runs.after serve s₀ calls).membershipOf x = some key) :
    LatestGrant s₀ calls x key := by
  revert x key
  refine Runs.invariant (P := fun calls s => ∀ x key, s.membershipOf x = some key →
    LatestGrant s₀ calls x key) serve ?_ ?_ calls
  · intro x key hx
    simp [membershipOf, membershipIn, hnobody] at hx
  · intro calls call hbefore x key hx
    obtain hgrants | ⟨hheld, hnone⟩ := serve_granted (run_sound h calls) call x key hx
    · refine ⟨calls, call, [], rfl, hgrants, ?_⟩
      intro mid later tail hsplit
      simp at hsplit
    · exact (hbefore x key hheld).concat hnone

/-- In every state a relay reaches, whoever is attached was granted that membership by the
latest of its own grants; and a message handled there delivers a frame only to a connection
then attached to the mailbox that keeps its body, and touches at most one mailbox. -/
theorem mailboxes_isolated {config : RelayConfig C} {store : MailboxStore} {s₀ : Relay C L}
    (hstart : withStore config store = .ok s₀) (calls : List RelayCall) :
    let s := Runs.after serve s₀ calls
    (∀ x key, s.membershipOf x = some key → LatestGrant s₀ calls x key) ∧
    ∀ connection peerAddress now randomness message,
      let r := handle connection peerAddress now randomness message s
      (∀ recipient seq body, route recipient (.frame seq body) ∈ Runs.effects r →
        (Call.after r).Stored recipient seq body) ∧
      ∃ id, Elsewhere s (Call.after r) connection id := by
  obtain ⟨hsound₀, -, -, hnobody, -⟩ := withStore_sound hstart
  have hsound := run_sound hsound₀ calls
  refine ⟨run_granted hsound₀ hnobody calls, ?_⟩
  intro connection peerAddress now randomness message r
  have hhandled : Handled (Runs.after serve s₀ calls) connection peerAddress now randomness
      message r := handle_handled hsound connection peerAddress now randomness message
  clear_value r
  have hidle : ∀ limiter, Elsewhere (Runs.after serve s₀ calls)
      { Runs.after serve s₀ calls with limiter } connection randomness.mailboxId :=
    fun _ => ⟨fun _ _ => rfl, fun _ _ _ => .rfl, fun _ _ => .inl rfl, fun _ _ => .inl rfl⟩
  cases hhandled with
  | @limited limiter =>
    refine ⟨?_, randomness.mailboxId, hidle limiter⟩
    intro recipient seq body hmem
    cases hmem
  | @turnedAway limiter code =>
    refine ⟨?_, randomness.mailboxId, hidle limiter⟩
    intro recipient seq body hmem
    cases (RoutedMessage.mk.inj (List.mem_singleton.mp hmem)).2
  | @ran limiter _ _ houtcome =>
    have hlimited := hsound.withLimiter limiter
    refine ⟨fun recipient seq body => houtcome.frames hlimited, ?_⟩
    obtain ⟨id, helsewhere⟩ := houtcome.elsewhere hlimited
    exact ⟨id, helsewhere.mailboxes, helsewhere.expiries, helsewhere.routes, helsewhere.members⟩

end Relay

section Sample

attribute [local instance] Primitives.transparent
attribute [local instance] RateLimiter.idle

theorem Relay.mailboxes_isolated_sample :
    (∀ x key, (Relay.afterSample []).membershipOf x = some key → Relay.LatestGrant
      (Relay.unloaded RelayConfig.sample () ⟨∅, []⟩) RelayCall.sample x key) ∧
    ∀ connection peerAddress now randomness message,
      let r := Relay.handle connection peerAddress now randomness message (Relay.afterSample [])
      (∀ recipient seq body, route recipient (.frame seq body) ∈ Runs.effects r →
        (Call.after r).Stored recipient seq body) ∧
      ∃ id, Relay.Elsewhere (Relay.afterSample []) (Call.after r) connection id :=
  Relay.mailboxes_isolated (Relay.withStore_sample []) RelayCall.sample

end Sample
end CbclPairing
