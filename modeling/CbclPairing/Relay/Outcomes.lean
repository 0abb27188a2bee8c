import CbclPairing.Relay.ServiceSteps

/-! What one client command does to a sound relay: it is refused by the store, it is
answered without a change, or it changes one mailbox and attaches one connection. -/
namespace CbclPairing
open Codec Calls Tables

namespace Relay

variable {C L : Type} [Primitives] {s : Relay C L} {id : Octets 32} {m m' : Mailbox}

/-- The mailbox a message is about and the command it gives there, once the checks of
the relay itself are passed. -/
def addressed (s : Relay C L) (connection : ConnectionId) (randomness : RelayRandomness) :
    ClientMessage → Option (Octets 32 × MailboxCommand)
  | .claim locator =>
    if (s.membershipOf connection).isSome ∨ tokenHash randomness.membershipToken ∈ s.membershipHashes
    then none
    else (s.resolve locator).map (·, .claim (tokenHash randomness.membershipToken))
  | .claimV2 id token =>
    if (s.membershipOf connection).isSome ∨ tokenHash randomness.membershipToken ∈ s.membershipHashes
    then none
    else some (id, .claimV2 (tokenHash randomness.membershipToken) token)
  | .openMailbox id token => some (id, .openMailbox (tokenHash token))
  | .put seq body =>
    (s.membershipOf connection).map fun key => (key.mailboxId, .put key.membership seq body)
  | .ack peerSeq =>
    (s.membershipOf connection).map fun key => (key.mailboxId, .ack key.membership peerSeq)
  | .close => (s.membershipOf connection).map fun key => (key.mailboxId, .close key.membership)
  | _ => none

omit [Primitives] in
def memberKind : ClientMessage → Option MailboxCommandKind
  | .put seq body => some (.put seq body)
  | .ack peerSeq => some (.ack peerSeq)
  | .close => some .close
  | _ => none

omit [Primitives] in
/-- The replies to a command that found its mailbox expired. -/
def expiryMessages (s : Relay C L) (connection : ConnectionId) (id : Octets 32) (m : Mailbox) :
    ClientMessage → List RoutedMessage
  | .claim _ | .openMailbox .. =>
    if m.status.isTerminal then [route connection (.error 503)]
    else [route connection (.closed .expired)]
  | .claimV2 .. => [route connection (.error 503)]
  | _ => if m.status.isTerminal then [] else deduplicateRoutes (s.terminalRoutes id .expired)

omit [Primitives] in
/-- The replies that grant and deliver nothing. -/
def plain : ServerMessage → Bool
  | .error _ | .closed _ | .pong => true
  | _ => false

/-- A member addresses the mailbox it is attached to. -/
theorem addressed_of_memberKind {connection : ConnectionId} {randomness : RelayRandomness}
    {message : ClientMessage} {kind : MailboxCommandKind}
    (h : memberKind message = some kind) : s.addressed connection randomness message =
      (s.membershipOf connection).map fun key => (key.mailboxId, kind.by key.membership) := by
  cases message with
  | put | ack | close =>
    obtain rfl := Option.some.inj h
    rfl
  | bind | allocate | claim | allocateV2 | claimV2 | openMailbox | ping => cases h

omit [Primitives] in
theorem expiryMessages_of_memberKind {connection : ConnectionId} {message : ClientMessage}
    {kind : MailboxCommandKind} (h : memberKind message = some kind) :
    s.expiryMessages connection id m message = if m.status.isTerminal then []
      else deduplicateRoutes (s.terminalRoutes id .expired) := by
  cases message with
  | put | ack | close => rfl
  | bind | allocate | claim | allocateV2 | claimV2 | openMailbox | ping => cases h

/-- A claim addresses the mailbox its locator resolves to. -/
theorem addressed_resolved {connection : ConnectionId} {randomness : RelayRandomness}
    (locator : Locator) (hmember : ¬ (s.membershipOf connection).isSome = true)
    (hused : tokenHash randomness.membershipToken ∉ s.membershipHashes) :
    s.addressed connection randomness (.claim locator) =
      (s.resolve locator).map (·, .claim (tokenHash randomness.membershipToken)) :=
  if_neg (not_or.mpr ⟨hmember, hused⟩)

theorem addressed_claimV2 {connection : ConnectionId} {randomness : RelayRandomness}
    (token : ClaimToken) (hmember : ¬ (s.membershipOf connection).isSome = true)
    (hused : tokenHash randomness.membershipToken ∉ s.membershipHashes) :
    s.addressed connection randomness (.claimV2 id token) =
      some (id, .claimV2 (tokenHash randomness.membershipToken) token) :=
  if_neg (not_or.mpr ⟨hmember, hused⟩)

/-- The message is not about a mailbox that has expired. -/
def Unexpired (s : Relay C L) (connection : ConnectionId) (now : UInt64)
    (randomness : RelayRandomness) (message : ClientMessage) : Prop :=
  ∀ id c m, s.addressed connection randomness message = some (id, c) →
    s.mailboxes.lookup id = some m → now < m.expiresAt

omit [Primitives] in
/-- The reply to an allocation of a mailbox. -/
inductive AllocationReply (randomness : RelayRandomness) (m : Mailbox) :
    ClientMessage → ServerMessage → Prop
  | v1 {locatorMode : UInt8} {ttlSeconds : Option ℕ} : m.mailboxId = randomness.mailboxId →
      AllocationReply randomness m (.allocate locatorMode ttlSeconds)
        (.allocated m.mailboxId randomness.membershipToken m.nameplate m.expiresAt)
  | v2 {commitment : Octets 32} {ttlSeconds : Option ℕ} :
      AllocationReply randomness m (.allocateV2 m.mailboxId commitment ttlSeconds)
        (.allocatedV2 m.mailboxId randomness.membershipToken m.expiresAt)

omit [Primitives] in
/-- The reply to a claim of a mailbox. -/
inductive ClaimReply (s : Relay C L) (randomness : RelayRandomness) (id : Octets 32)
    (m : Mailbox) : ClientMessage → ServerMessage → Prop
  | v1 {locator : Locator} : s.resolve locator = some id →
      ClaimReply s randomness id m (.claim locator)
        (.claimed id randomness.membershipToken m.expiresAt)
  | v2 {token : ClaimToken} : ClaimReply s randomness id m (.claimV2 id token)
        (.claimedV2 id randomness.membershipToken m.expiresAt)

/-- What a command does. -/
inductive Outcome (s : Relay C L) (connection : ConnectionId) (now : UInt64)
    (randomness : RelayRandomness) : ClientMessage →
    EStateM.Result (Fault RelayError) (Relay C L) (List RoutedMessage) → Prop
  | refused {message : ClientMessage} : s.Refuses →
      Outcome s connection now randomness message (.error (.error .storage) s.spent)
  | aborted {message : ClientMessage} : (memberKind message).isSome = true →
      Outcome s connection now randomness message (.error .aborted s)
  | replied {message : ClientMessage} {reply : ServerMessage} :
      Unexpired s connection now randomness message → plain reply = true →
      Outcome s connection now randomness message (.ok [route connection reply] s)
  | bound : Outcome s connection now randomness .bind
      (.ok [route connection .welcome] (s.boundBy connection))
  | retained {message : ClientMessage} {m : Mailbox} {reply : ServerMessage} :
      Mailbox.Allocated m → Fits s m.mailboxId m → m.mailboxId ∉ s.mailboxes →
      s.mailboxes.size < s.config.capacity.openMailboxes.toNat →
      AllocationReply randomness m message reply →
      s.membershipOf connection = none → ¬ s.Refuses →
      Outcome s connection now randomness message (.ok [route connection reply]
        (((s.wrote m).install m).attach connection ⟨m.mailboxId, .allocator⟩))
  | claimed {message : ClientMessage} {id : Octets 32} {c : MailboxCommand} {m m' : Mailbox}
      {reply : ServerMessage} : s.addressed connection randomness message = some (id, c) →
      s.mailboxes.lookup id = some m → m.status.isTerminal = false → now < m.expiresAt →
      Mailbox.Moves m c [.claimed .claimant m.expiresAt] m' →
      ClaimReply s randomness id m message reply →
      s.membershipOf connection = none → ¬ s.Refuses →
      Outcome s connection now randomness message (.ok [route connection reply]
        ((s.replaced id m m').attach connection ⟨id, .claimant⟩))
  | crowded {locator : Locator} {id : Octets 32} {c : MailboxCommand} {m : Mailbox} :
      s.addressed connection randomness (.claim locator) = some (id, c) →
      s.mailboxes.lookup id = some m → m.status.isTerminal = false → now < m.expiresAt →
      Mailbox.Ends m c .crowded → s.membershipOf connection = none → ¬ s.Refuses →
      Outcome s connection now randomness (.claim locator) (.ok
        (deduplicateRoutes (s.terminalRoutes id .crowded ++ [route connection (.closed .crowded)]))
        (s.replaced id m (m.ended .crowded)))
  | opened {id token : Octets 32} {m : Mailbox} {membership : Membership} :
      s.mailboxes.lookup id = some m → m.status.isTerminal = false → now < m.expiresAt →
      m.membershipForHash (tokenHash token) = some membership → ¬ s.Refuses →
      Outcome s connection now randomness (.openMailbox id token) (.ok
        (delivered connection (Mailbox.deliveries membership (m.framesOf membership.opposite)))
        ((s.replaced id m m).attach connection ⟨id, membership⟩))
  | member {message : ClientMessage} {kind : MailboxCommandKind} {key : SessionMembership}
      {m m' : Mailbox} {effects : List MailboxEffect} : memberKind message = some kind →
      s.membershipOf connection = some key → s.mailboxes.lookup key.mailboxId = some m →
      m.status.isTerminal = false → now < m.expiresAt →
      Mailbox.Moves m (kind.by key.membership) effects m' →
      s.queueBytes - m.queueBytes + m'.queueBytes ≤ s.config.capacity.queueBytes.toNat →
      ¬ s.Refuses → Outcome s connection now randomness message (.ok
        (s.memberMessages connection kind key.mailboxId effects) (s.replaced key.mailboxId m m'))
  | expired {message : ClientMessage} {id : Octets 32} {c : MailboxCommand} {m : Mailbox} :
      s.addressed connection randomness message = some (id, c) →
      s.mailboxes.lookup id = some m → m.expiresAt ≤ now → ¬ s.Refuses →
      Outcome s connection now randomness message
        (.ok (s.expiryMessages connection id m message) (s.removed id m))

/-! ### Effects -/

omit [Primitives] in
theorem findSome?_deletions {β : Type} (f : MailboxEffect → Option β)
    (hf : ∀ owner seq, f (.bodyDeleted owner seq) = none) (rest : List MailboxEffect) :
    (m.deletions ++ rest).findSome? f = rest.findSome? f := by
  have hnone : m.deletions.findSome? f = none := by
    rw [List.findSome?_eq_none_iff]
    intro effect hmem
    obtain ⟨owner, seq, rfl⟩ := Mailbox.mem_deletions hmem
    exact hf owner seq
  rw [List.findSome?_append, hnone, Option.none_or]

omit [Primitives] in
theorem claimedAt_deletions (rest : List MailboxEffect) :
    claimedAt (m.deletions ++ rest) = claimedAt rest :=
  findSome?_deletions _ (fun _ _ => rfl) rest

omit [Primitives] in
theorem openedAs_deletions (rest : List MailboxEffect) :
    openedAs (m.deletions ++ rest) = openedAs rest :=
  findSome?_deletions _ (fun _ _ => rfl) rest

omit [Primitives] in
theorem terminalReason_deletions (rest : List MailboxEffect) :
    terminalReason (m.deletions ++ rest) = terminalReason rest :=
  findSome?_deletions _ (fun _ _ => rfl) rest

/-! ### Settling an answer of the mailbox -/

/-- The fit of what a move makes of a retained mailbox. -/
theorem Sound.fits (h : s.Sound) (hm : s.mailboxes.lookup id = some m) {c : MailboxCommand}
    {effects : List MailboxEffect} (hmoves : Mailbox.Moves m c effects m')
    (hfresh : ∀ hash, (c = .claim hash ∨ ∃ token, c = .claimV2 hash token) →
      hash ∉ s.membershipHashes) : Fits s id m' := by
  obtain ⟨hid, hnameplate, hexpires⟩ := hmoves.kept
  have hnodup := h.nodup id m hm
  have hknown : ∀ hash ∈ m.membershipHashes, ∃ old, s.mailboxes.lookup id = some old ∧
      hash ∈ old.membershipHashes := fun hash hmem => ⟨m, hm, hmem⟩
  refine ⟨hmoves.recorded (h.recorded id m hm), hid.trans (h.named id m hm), ?_, ?_, ?_, ?_⟩
  · obtain hsame | ⟨hash, -, hne, hjoined, -⟩ := hmoves.hashes
    · rw [hsame]
      exact hnodup
    · rw [hjoined]
      simpa using hne.symm
  · intro old hold
    obtain rfl := Option.some.inj (hm.symm.trans hold)
    refine ⟨hnameplate.symm, hexpires.symm, ?_⟩
    intro hash hmem
    obtain hsame | ⟨joined, hnone, -, hjoined, -⟩ := hmoves.hashes
    · rw [hsame]
      exact hmem
    · have hone : m.membershipHashes = [m.allocator.hash] := by
        simp [Mailbox.membershipHashes, hnone]
      rw [hone, List.mem_singleton] at hmem
      simp [hjoined, hmem]
  · intro n hn j hj
    have hown := (h.nameplates n id).mpr ⟨m, hm, hnameplate.symm.trans hn⟩
    exact Option.some.inj (hj.symm.trans hown)
  · intro hash hmem hused
    obtain hsame | ⟨joined, hnone, -, hjoined, hcommand⟩ := hmoves.hashes
    · rw [hsame] at hmem
      exact hknown hash hmem
    · have hone : m.membershipHashes = [m.allocator.hash] := by
        simp [Mailbox.membershipHashes, hnone]
      rw [hjoined] at hmem
      simp only [List.mem_cons, List.not_mem_nil, or_false] at hmem
      obtain rfl | rfl := hmem
      · exact hknown _ (by simp [hone])
      · exact absurd hused (hfresh hash hcommand)

/-- A move that does not lengthen the queue stays inside the cap. -/
theorem Sound.room_of_le (h : s.Sound) (hm : s.mailboxes.lookup id = some m)
    (hle : m'.queueBytes ≤ m.queueBytes) :
    s.queueBytes - m.queueBytes + m'.queueBytes ≤ s.config.capacity.queueBytes.toNat := by
  have hretained := h.queueBytes_le hm
  have hroom := h.room
  omega

theorem Sound.commit_moved (h : s.Sound) (hm : s.mailboxes.lookup id = some m)
    (hm' : m'.Recorded) (hroom : s.queueBytes - m.queueBytes + m'.queueBytes ≤
      s.config.capacity.queueBytes.toNat) (effects : List MailboxEffect) :
    commit id ⟨some m', effects⟩ s =
      if s.Refuses then .error (.error .storage) s.spent else .ok () (s.replaced id m m') := by
  have hcap := s.config.capacity.queueBytes.toNat_lt
  exact commit_some h.toIndexed hm hm' (by omega) effects

/-! ### Commands on a mailbox -/

section Commands

variable {connection : ConnectionId} {now : UInt64} {randomness : RelayRandomness}
  {message : ClientMessage}

theorem unexpired_of_none (h : s.addressed connection randomness message = none) :
    Unexpired s connection now randomness message := by
  intro id c m haddressed
  rw [h] at haddressed
  cases haddressed

theorem unexpired_of_some {c : MailboxCommand}
    (h : s.addressed connection randomness message = some (id, c))
    (hm : ∀ m, s.mailboxes.lookup id = some m → now < m.expiresAt) :
    Unexpired s connection now randomness message := by
  intro id' c' m haddressed hlookup
  rw [h] at haddressed
  obtain ⟨rfl, -⟩ := Prod.mk.inj (Option.some.inj haddressed)
  exact hm m hlookup

omit [Primitives] in
theorem mailboxError_plain (e : MailboxError) : plain (mailboxError e) = true := by
  cases e <;> rfl

theorem answered_outcome (h : s.Sound) (hm : s.mailboxes.lookup id = some m) {c : MailboxCommand}
    (haddressed : s.addressed connection randomness message = some (id, c))
    {next : MailboxTransition → Step C L (List RoutedMessage)}
    (hmoved : ∀ effects m', m.status.isTerminal = false → now < m.expiresAt →
      Mailbox.Moves m c effects m' →
      Outcome s connection now randomness message (next ⟨some m', effects⟩ s))
    (hreaped : m.expiresAt ≤ now → Outcome s connection now randomness message
      (next ⟨none, m.deletions ++ if m.status.isTerminal then [] else [.terminal .expired]⟩ s)) :
    Outcome s connection now randomness message
      (answered connection (m.transition now c) next s) := by
  have houtcome := Mailbox.transition_outcome (h.recorded id m hm) now c
  generalize m.transition now c = result at houtcome
  cases houtcome with
  | reaped hexpired => exact hreaped hexpired
  | refused hnow =>
    refine .replied (unexpired_of_some haddressed ?_) (mailboxError_plain _)
    intro m' hm'
    rw [hm, Option.some.injEq] at hm'
    rw [← hm']
    exact hnow
  | moved hnow hlive hmoves => exact hmoved _ _ hlive hnow hmoves

omit [Primitives] in
theorem terminalRoutes_removed (reason : CloseReason) :
    (s.removed id m).terminalRoutes id reason = [] := by
  simp [terminalRoutes, lookup_removed]

/-- A commit is refused by the store, or the rest follows in the changed relay. -/
theorem commit_outcome {t : MailboxTransition} {s₁ : Relay C L}
    {rest : Unit → Step C L (List RoutedMessage)}
    (hcommit : commit id t s =
      if s.Refuses then .error (.error .storage) s.spent else .ok () s₁)
    (hrest : ¬ s.Refuses → Outcome s connection now randomness message (rest () s₁)) :
    Outcome s connection now randomness message ((commit id t >>= rest) s) := by
  by_cases hrefuses : s.Refuses
  · rw [Call.run_bind_error (hcommit.trans (if_pos hrefuses))]
    exact .refused hrefuses
  · rw [Call.run_bind (hcommit.trans (if_neg hrefuses))]
    exact hrest hrefuses

omit [Primitives] in
/-- What the effects of an expiry say. -/
theorem expiry_effects (status : MailboxStatus) :
    let effects := m.deletions ++ if status.isTerminal then [] else [.terminal .expired]
    claimedAt effects = none ∧ openedAs effects = none ∧
      terminalReason effects = if status.isTerminal then none else some .expired := by
  refine ⟨?_, ?_, ?_⟩
  · rw [claimedAt_deletions]
    split_ifs <;> rfl
  · rw [openedAs_deletions]
    split_ifs <;> rfl
  · rw [terminalReason_deletions]
    split_ifs <;> rfl

omit [Primitives] in
theorem closing_removed (reason : CloseReason) : closing connection id reason (s.removed id m) =
    .ok [route connection (.closed reason)] (s.removed id m) := by
  unfold closing
  rw [Call.run_bind (Call.run_get _), terminalRoutes_removed]
  rfl

theorem claim_outcome (h : s.Sound) (locator : Locator) :
    Outcome s connection now randomness (.claim locator)
      (claim connection now randomness.membershipToken locator s) := by
  unfold claim
  rw [Call.run_bind (Call.run_get s)]
  by_cases hmember : (s.membershipOf connection).isSome
  · rw [if_pos hmember]
    exact .replied (unexpired_of_none (if_pos (.inl hmember))) rfl
  rw [if_neg hmember]
  cases hresolve : s.resolve locator with
  | none =>
    refine .replied (unexpired_of_none ?_) rfl
    by_cases hused : tokenHash randomness.membershipToken ∈ s.membershipHashes
    · exact if_pos (.inr hused)
    · rw [addressed_resolved locator hmember hused, hresolve]
      rfl
  | some id =>
    dsimp only
    by_cases hused : tokenHash randomness.membershipToken ∈ s.membershipHashes
    · rw [if_pos hused]
      exact .replied (unexpired_of_none (if_pos (.inr hused))) rfl
    rw [if_neg hused]
    have hnone : s.membershipOf connection = none := by simpa using hmember
    have haddressed : s.addressed connection randomness (.claim locator) =
        some (id, .claim (tokenHash randomness.membershipToken)) := by
      rw [addressed_resolved locator hmember hused, hresolve]
      rfl
    cases hm : s.mailboxes.lookup id with
    | none => exact .replied (unexpired_of_some haddressed (by simp [hm])) rfl
    | some m =>
      refine answered_outcome h hm haddressed ?_ ?_
      · intro effects m' hlive hnow hmoves
        refine commit_outcome (h.commit_moved hm (hmoves.recorded (h.recorded id m hm))
          (h.room_of_le hm (hmoves.queueBytes_le (by simp))) effects) ?_
        intro hrefuses
        have hmoved := hmoves
        cases hmoves with
        | claimed =>
          exact .claimed haddressed hm hlive hnow hmoved (.v1 hresolve) hnone hrefuses
        | ended hends =>
          cases hends with
          | crowded hadmission hclaimant hne hne' =>
            have hcrowded := Outcome.crowded haddressed hm hlive hnow
              (.crowded hadmission hclaimant hne hne') hnone hrefuses
            simp only [claimedAt_deletions, terminalReason_deletions]
            exact hcrowded
      · intro hexpired
        refine commit_outcome (commit_none h.toIndexed hm _) ?_
        intro hrefuses
        have houtcome := Outcome.expired haddressed hm hexpired hrefuses
        obtain ⟨hclaimed, -, hterminal⟩ := expiry_effects (m := m) m.status
        simp only [hclaimed, hterminal]
        cases hstatus : m.status.isTerminal with
        | true =>
          simp only [expiryMessages, hstatus, if_true] at houtcome
          exact houtcome
        | false =>
          simp only [expiryMessages, hstatus, Bool.false_eq_true, if_false] at houtcome
          simp only [Bool.false_eq_true, if_false, closing_removed]
          exact houtcome

theorem claimV2_outcome (h : s.Sound) (id : Octets 32) (claimToken : ClaimToken) :
    Outcome s connection now randomness (.claimV2 id claimToken)
      (claimV2 connection now randomness.membershipToken id claimToken s) := by
  unfold claimV2
  rw [Call.run_bind (Call.run_get s)]
  by_cases hmember : (s.membershipOf connection).isSome
  · rw [if_pos hmember]
    exact .replied (unexpired_of_none (if_pos (.inl hmember))) rfl
  rw [if_neg hmember]
  by_cases hused : tokenHash randomness.membershipToken ∈ s.membershipHashes
  · rw [if_pos hused]
    exact .replied (unexpired_of_none (if_pos (.inr hused))) rfl
  rw [if_neg hused]
  have hnone : s.membershipOf connection = none := by simpa using hmember
  have haddressed : s.addressed connection randomness (.claimV2 id claimToken) = _ :=
    addressed_claimV2 claimToken hmember hused
  cases hm : s.mailboxes.lookup id with
  | none => exact .replied (unexpired_of_some haddressed (by simp [hm])) rfl
  | some m =>
    refine answered_outcome h hm haddressed ?_ ?_
    · intro effects m' hlive hnow hmoves
      refine commit_outcome (h.commit_moved hm (hmoves.recorded (h.recorded id m hm))
        (h.room_of_le hm (hmoves.queueBytes_le (by simp))) effects) ?_
      intro hrefuses
      have hmoved := hmoves
      cases hmoves with
      | claimedV2 => exact .claimed haddressed hm hlive hnow hmoved .v2 hnone hrefuses
      | ended hends => cases hends
    · intro hexpired
      refine commit_outcome (commit_none h.toIndexed hm _) ?_
      intro hrefuses
      obtain ⟨hclaimed, -, -⟩ := expiry_effects (m := m) m.status
      simp only [hclaimed]
      exact .expired haddressed hm hexpired hrefuses

omit [Primitives] in
theorem openedAs_opened (membership : Membership) (expiresAt : UInt64)
    (rest : List MailboxEffect) :
    openedAs (.opened membership expiresAt :: rest) = some membership := rfl

theorem openMailbox_outcome (h : s.Sound) (id token : Octets 32) :
    Outcome s connection now randomness (.openMailbox id token)
      (openMailbox connection now id token s) := by
  unfold openMailbox
  rw [Call.run_bind (Call.run_get s)]
  have haddressed : s.addressed connection randomness (.openMailbox id token) =
      some (id, .openMailbox (tokenHash token)) := rfl
  cases hm : s.mailboxes.lookup id with
  | none => exact .replied (unexpired_of_some haddressed (by simp [hm])) rfl
  | some m =>
    refine answered_outcome h hm haddressed ?_ ?_
    · intro effects m' hlive hnow hmoves
      refine commit_outcome (h.commit_moved hm (hmoves.recorded (h.recorded id m hm))
        (h.room_of_le hm (hmoves.queueBytes_le (by simp))) effects) ?_
      intro hrefuses
      cases hmoves with
      | opened hhash => exact .opened hm hlive hnow hhash hrefuses
      | ended hends => cases hends
    · intro hexpired
      refine commit_outcome (commit_none h.toIndexed hm _) ?_
      intro hrefuses
      have houtcome := Outcome.expired haddressed hm hexpired hrefuses
      obtain ⟨-, hopened, hterminal⟩ := expiry_effects (m := m) m.status
      simp only [hopened, hterminal]
      cases hstatus : m.status.isTerminal with
      | true =>
        simp only [expiryMessages, hstatus, if_true] at houtcome
        exact houtcome
      | false =>
        simp only [expiryMessages, hstatus, Bool.false_eq_true, if_false] at houtcome
        simp only [Bool.false_eq_true, if_false, closing_removed]
        exact houtcome

/-! ### Commands of a member -/

omit [Primitives] in
theorem flatMap_dispatch_deletions (rest : List MailboxEffect) :
    (m.deletions ++ rest).flatMap (s.dispatch id) = rest.flatMap (s.dispatch id) := by
  have hnone : m.deletions.flatMap (s.dispatch id) = [] := by
    rw [List.flatMap_eq_nil_iff]
    intro effect hmem
    obtain ⟨owner, seq, rfl⟩ := Mailbox.mem_deletions hmem
    rfl
  rw [List.flatMap_append, hnone, List.nil_append]

omit [Primitives] in
theorem confirmation_deletions (kind : MailboxCommandKind) (rest : List MailboxEffect) :
    confirmation connection (m.deletions ++ rest) kind = confirmation connection rest kind := by
  cases kind with
  | put seq body =>
    have hnone : m.deletions.any (isStored seq) = false := by
      rw [List.any_eq_false]
      intro effect hmem
      obtain ⟨owner, seq, rfl⟩ := Mailbox.mem_deletions hmem
      simp [isStored]
    simp only [confirmation, List.any_append, hnone, Bool.false_or]
  | ack | close => rfl

omit [Primitives] in
theorem memberMessages_expiry (kind : MailboxCommandKind) :
    s.memberMessages connection kind id
        (m.deletions ++ if m.status.isTerminal then [] else [.terminal .expired]) =
      if m.status.isTerminal then [] else deduplicateRoutes (s.terminalRoutes id .expired) := by
  unfold memberMessages
  rw [confirmation_deletions, flatMap_dispatch_deletions]
  split_ifs
  · cases kind <;> rfl
  · cases kind <;> simp [confirmation, dispatch, isStored]

/-- The accounting the relay projects is that of the move it would commit. -/
theorem Sound.projected (h : s.Sound) (hm : s.mailboxes.lookup id = some m)
    {kind : MailboxCommandKind} {sender : Membership} {effects : List MailboxEffect}
    (hmoves : Mailbox.Moves m (kind.by sender) effects m')
    (hmemory : ¬ 2 ^ 64 ≤ s.queueBytes + kind.bodyBytes) :
    ¬ s.config.capacity.queueBytes.toNat < s.projectedQueueBytes id ⟨some m', effects⟩ ↔
      s.queueBytes - m.queueBytes + m'.queueBytes ≤ s.config.capacity.queueBytes.toNat := by
  have hgrowth : m'.queueBytes ≤ m.queueBytes + kind.bodyBytes := by
    cases kind with
    | put seq body => exact hmoves.queueBytes_put
    | ack | close => exact hmoves.queueBytes_le (by simp [MailboxCommandKind.by])
  have hle := h.queueBytes_le hm
  simp only [projectedQueueBytes, hm, Option.elim_some]
  omega

theorem memberCommand_outcome (h : s.Sound) {kind : MailboxCommandKind}
    (hkind : memberKind message = some kind) :
    Outcome s connection now randomness message (memberCommand connection now kind s) := by
  unfold memberCommand
  rw [Call.run_bind (Call.run_get s)]
  cases hkey : s.membershipOf connection with
  | none =>
    refine .replied (unexpired_of_none ?_) rfl
    rw [addressed_of_memberKind hkind, hkey]
    rfl
  | some key =>
    dsimp only
    have haddressed : s.addressed connection randomness message =
        some (key.mailboxId, kind.by key.membership) := by
      rw [addressed_of_memberKind hkind, hkey]
      rfl
    cases hm : s.mailboxes.lookup key.mailboxId with
    | none => exact .replied (unexpired_of_some haddressed (by simp [hm])) rfl
    | some m =>
      by_cases hmemory : 2 ^ 64 ≤ s.queueBytes + kind.bodyBytes
      · simp only [if_pos hmemory]
        exact .aborted (by rw [hkind]; rfl)
      simp only [if_neg hmemory]
      refine answered_outcome h hm haddressed ?_ ?_
      · intro effects m' hlive hnow hmoves
        have hrecorded := hmoves.recorded (h.recorded _ m hm)
        unfold settleMember
        rw [Call.run_bind (Call.run_get s)]
        by_cases hroom : s.config.capacity.queueBytes.toNat <
            s.projectedQueueBytes key.mailboxId ⟨some m', effects⟩
        · rw [if_pos hroom]
          refine .replied (unexpired_of_some haddressed ?_) rfl
          intro m' hm'
          rw [hm, Option.some.injEq] at hm'
          rw [← hm']
          exact hnow
        rw [if_neg hroom]
        have hroom := (h.projected hm hmoves hmemory).mp hroom
        refine commit_outcome (h.commit_moved hm hrecorded hroom effects) ?_
        intro hrefuses
        exact .member hkind hkey hm hlive hnow hmoves hroom hrefuses
      · intro hexpired
        have hroom : ¬ s.config.capacity.queueBytes.toNat < s.projectedQueueBytes key.mailboxId
            ⟨none, m.deletions ++ if m.status.isTerminal then [] else [.terminal .expired]⟩ := by
          have hle := h.room
          simp only [projectedQueueBytes, hm, Option.elim_some, Option.elim_none]
          omega
        unfold settleMember
        rw [Call.run_bind (Call.run_get s), if_neg hroom]
        refine commit_outcome (commit_none h.toIndexed hm _) ?_
        intro hrefuses
        have houtcome := Outcome.expired haddressed hm hexpired hrefuses
        have hmessages : s.expiryMessages connection key.mailboxId m message =
            s.memberMessages connection kind key.mailboxId
              (m.deletions ++ if m.status.isTerminal then [] else [.terminal .expired]) := by
          rw [memberMessages_expiry, expiryMessages_of_memberKind hkind]
        rw [hmessages] at houtcome
        exact houtcome

/-! ### Allocations -/

theorem fits_allocated (hm : Mailbox.Allocated m) (hid : m.mailboxId ∉ s.mailboxes)
    (hhash : m.allocator.hash ∉ s.membershipHashes)
    (hnameplate : ∀ n ∈ m.nameplate, n ∉ s.nameplates) : Fits s m.mailboxId m := by
  obtain ⟨hsound, -, -, hnone, -⟩ := hm.fresh
  have hhashes : m.membershipHashes = [m.allocator.hash] := by
    simp [Mailbox.membershipHashes, hnone]
  refine ⟨hsound.toRecorded, rfl, by simp [hhashes], ?_, ?_, ?_⟩
  · intro old hold
    exact absurd (Finmap.mem_of_lookup_eq_some hold) hid
  · intro n hn j hj
    exact absurd (Finmap.mem_of_lookup_eq_some hj) (hnameplate n hn)
  · intro hash hmem hused
    rw [hhashes, List.mem_singleton] at hmem
    rw [hmem] at hused
    exact absurd hused hhash

theorem retain_outcome (hm : Mailbox.Allocated m) (hid : m.mailboxId ∉ s.mailboxes)
    (hhash : m.allocator.hash ∉ s.membershipHashes)
    (hnameplate : ∀ n ∈ m.nameplate, n ∉ s.nameplates)
    (hsize : s.mailboxes.size < s.config.capacity.openMailboxes.toNat) {reply : ServerMessage}
    (hreply : AllocationReply randomness m message reply)
    (hnone : s.membershipOf connection = none) :
    Outcome s connection now randomness message (retain connection m reply s) := by
  have hrecorded := hm.fresh.1.toRecorded
  unfold retain
  by_cases hrefuses : s.Refuses
  · rw [Call.run_bind_error (by rw [stored_put hrecorded, if_pos hrefuses])]
    exact .refused hrefuses
  · rw [Call.run_bind (by rw [stored_put hrecorded, if_neg hrefuses])]
    exact .retained hm (fits_allocated hm hid hhash hnameplate) hid hsize hreply hnone hrefuses

theorem allocate_outcome (locatorMode : UInt8) (ttlSeconds : Option ℕ) :
    Outcome s connection now randomness (.allocate locatorMode ttlSeconds)
      (allocate connection now randomness locatorMode ttlSeconds s) := by
  unfold allocate
  rw [Call.run_bind (Call.run_get s)]
  by_cases henabled : !s.config.allocationEnabled
  · rw [if_pos henabled]
    exact .replied (unexpired_of_none rfl) rfl
  rw [if_neg henabled]
  by_cases hmember : (s.membershipOf connection).isSome
  · rw [if_pos hmember]
    exact .replied (unexpired_of_none rfl) rfl
  rw [if_neg hmember]
  by_cases hbusy : s.config.capacity.openMailboxes.toNat ≤ s.mailboxes.size ∨
      randomness.mailboxId ∈ s.mailboxes ∨
      tokenHash randomness.membershipToken ∈ s.membershipHashes
  · rw [if_pos hbusy]
    exact .replied (unexpired_of_none rfl) rfl
  rw [if_neg hbusy]
  rw [not_or, not_or, not_le] at hbusy
  cases hnameplate : s.chooseNameplate locatorMode randomness.nameplate with
  | error code => exact .replied (unexpired_of_none rfl) rfl
  | ok nameplate =>
    dsimp only
    cases hm : Mailbox.allocate ⟨randomness.mailboxId, nameplate,
        tokenHash randomness.membershipToken, now, ttlSeconds⟩ with
    | error e => exact .replied (unexpired_of_none rfl) (mailboxError_plain e)
    | ok m =>
      obtain ⟨hid, hplate, hhash⟩ := Mailbox.allocate_given hm
      refine retain_outcome (.v1 hm) (hid ▸ hbusy.2.1) (hhash ▸ hbusy.2.2) ?_ hbusy.1 ?_
        (by simpa using hmember)
      · intro n hn
        have hchosen : nameplate = some n := hplate.symm.trans hn
        unfold chooseNameplate at hnameplate
        split_ifs at hnameplate with hzero hone hfree
        · simp [hchosen] at hnameplate
        · obtain rfl : randomness.nameplate = n := by simpa [hchosen] using hnameplate
          exact hfree.2
      · have hreply : AllocationReply randomness m (.allocate locatorMode ttlSeconds) _ := .v1 hid
        rw [hid, hplate] at hreply
        exact hreply

theorem allocateV2_outcome (id commitment : Octets 32) (ttlSeconds : Option ℕ) :
    Outcome s connection now randomness (.allocateV2 id commitment ttlSeconds)
      (allocateV2 connection now randomness.membershipToken id commitment ttlSeconds s) := by
  unfold allocateV2
  rw [Call.run_bind (Call.run_get s)]
  by_cases henabled : !s.config.allocationEnabled
  · rw [if_pos henabled]
    exact .replied (unexpired_of_none rfl) rfl
  rw [if_neg henabled]
  by_cases hmember : (s.membershipOf connection).isSome
  · rw [if_pos hmember]
    exact .replied (unexpired_of_none rfl) rfl
  rw [if_neg hmember]
  by_cases hbusy : s.config.capacity.openMailboxes.toNat ≤ s.mailboxes.size ∨
      id ∈ s.mailboxes ∨ tokenHash randomness.membershipToken ∈ s.membershipHashes
  · rw [if_pos hbusy]
    exact .replied (unexpired_of_none rfl) rfl
  rw [if_neg hbusy]
  rw [not_or, not_or, not_le] at hbusy
  cases hm : Mailbox.allocateV2 ⟨id, tokenHash randomness.membershipToken, commitment, now,
      ttlSeconds⟩ with
  | error e => exact .replied (unexpired_of_none rfl) (mailboxError_plain e)
  | ok m =>
    obtain ⟨hid, hplate, hhash⟩ := Mailbox.allocateV2_given hm
    refine retain_outcome (.v2 hm) (hid ▸ hbusy.2.1) (hhash ▸ hbusy.2.2) (by simp [hplate])
      hbusy.1 ?_ (by simpa using hmember)
    have hreply : AllocationReply randomness m (.allocateV2 m.mailboxId commitment ttlSeconds) _ :=
      .v2
    rw [hid] at hreply
    exact hreply

theorem command_outcome (h : s.Sound) (message : ClientMessage) :
    Outcome s connection now randomness message (command connection now randomness message s) := by
  cases message with
  | bind => exact .bound
  | allocate locatorMode ttlSeconds => exact allocate_outcome locatorMode ttlSeconds
  | claim locator => exact claim_outcome h locator
  | allocateV2 id commitment ttlSeconds => exact allocateV2_outcome id commitment ttlSeconds
  | claimV2 id token => exact claimV2_outcome h id token
  | openMailbox id token => exact openMailbox_outcome h id token
  | put seq body => exact memberCommand_outcome h rfl
  | ack peerSeq => exact memberCommand_outcome h rfl
  | close => exact memberCommand_outcome h rfl
  | ping => exact .replied (unexpired_of_none rfl) rfl

end Commands

/-! ### The changes of a command -/

/-- The hash a claim brings is not in use. -/
theorem addressed_fresh {connection : ConnectionId} {randomness : RelayRandomness}
    {message : ClientMessage} {c : MailboxCommand}
    (h : s.addressed connection randomness message = some (id, c)) (hash : MembershipHash)
    (hclaim : c = .claim hash ∨ ∃ token, c = .claimV2 hash token) :
    hash ∉ s.membershipHashes := by
  cases message with
  | claim locator =>
    unfold addressed at h
    split_ifs at h with hrefused
    rw [not_or] at hrefused
    obtain ⟨target, -, htarget⟩ := Option.map_eq_some_iff.mp h
    obtain ⟨-, rfl⟩ := Prod.mk.inj htarget
    obtain hsame | ⟨token, hother⟩ := hclaim
    · rw [← MailboxCommand.claim.inj hsame]
      exact hrefused.2
    · cases hother
  | claimV2 target token =>
    unfold addressed at h
    split_ifs at h with hrefused
    rw [not_or] at hrefused
    obtain ⟨-, rfl⟩ := Prod.mk.inj (Option.some.inj h)
    simp only [MailboxCommand.claimV2.injEq, reduceCtorEq, false_or] at hclaim
    obtain ⟨other, hsame, -⟩ := hclaim
    rw [← hsame]
    exact hrefused.2
  | openMailbox target token =>
    obtain ⟨-, rfl⟩ := Prod.mk.inj (Option.some.inj h)
    simp at hclaim
  | put seq body | ack seq | close =>
    obtain ⟨key, -, hkey⟩ := Option.map_eq_some_iff.mp h
    obtain ⟨-, rfl⟩ := Prod.mk.inj hkey
    simp at hclaim
  | bind | allocate | allocateV2 | ping => cases h

/-- A claim is not a put. -/
theorem addressed_claim {connection : ConnectionId} {randomness : RelayRandomness}
    {message : ClientMessage} {reply : ServerMessage} {c : MailboxCommand}
    (h : s.addressed connection randomness message = some (id, c))
    (hclaim : ClaimReply s randomness id m message reply) (sender : Membership) (seq : UInt8)
    (body : Bytes) : c ≠ .put sender seq body := by
  cases hclaim with
  | v1 =>
    unfold addressed at h
    split_ifs at h with hrefused
    obtain ⟨target, -, htarget⟩ := Option.map_eq_some_iff.mp h
    rw [← (Prod.mk.inj htarget).2]
    simp
  | v2 =>
    unfold addressed at h
    split_ifs at h with hrefused
    rw [← (Prod.mk.inj (Option.some.inj h)).2]
    simp

/-- A command is made of changes that keep the invariant. -/
theorem Outcome.changes {connection : ConnectionId} {now : UInt64} {randomness : RelayRandomness}
    {message : ClientMessage}
    {result : EStateM.Result (Fault RelayError) (Relay C L) (List RoutedMessage)}
    (houtcome : Outcome s connection now randomness message result) (h : s.Sound) :
    Changes s (Call.after result) := by
  cases houtcome with
  | refused => exact .single .spent
  | aborted => exact .refl
  | replied => exact .refl
  | bound => exact .single (.bound connection)
  | @retained _ m _ hm hfits hid hsize =>
    obtain ⟨-, -, -, hnone, hempty⟩ := hm.fresh
    refine .tail (.single (.installed hfits hid hnone hempty hsize)) (.attached connection ?_)
    exact Finmap.mem_insert.mpr (.inl rfl)
  | @claimed _ id c m m' _ haddressed hm hlive hnow hmoves hreply _ _ =>
    have hfits := h.fits hm hmoves (addressed_fresh haddressed)
    have hroom := h.room_of_le hm (hmoves.queueBytes_le (addressed_claim haddressed hreply))
    refine .tail (.single (.replaced hm hfits hroom)) (.attached connection ?_)
    exact Finmap.mem_insert.mpr (.inl rfl)
  | @crowded _ id c m haddressed hm hlive hnow hends =>
    have hmoves : Mailbox.Moves m c _ (m.ended .crowded) := .ended hends
    have hfits := h.fits hm hmoves (addressed_fresh haddressed)
    have hroom := h.room_of_le hm (hmoves.queueBytes_le (by cases hends; simp))
    exact .single (.replaced hm hfits hroom)
  | @opened id token m membership hm hlive hnow hhash =>
    have hmoves : Mailbox.Moves m (.openMailbox (tokenHash token)) _ m := .opened hhash
    have hfits := h.fits hm hmoves (by simp)
    have hroom := h.room_of_le hm le_rfl
    refine .tail (.single (.replaced hm hfits hroom)) (.attached connection ?_)
    exact Finmap.mem_insert.mpr (.inl rfl)
  | @member _ kind key m m' effects hkind hkey hm hlive hnow hmoves hroom =>
    have hfits := h.fits hm hmoves (by cases kind <;> simp [MailboxCommandKind.by])
    exact .single (.replaced hm hfits hroom)
  | @expired _ id c m haddressed hm => exact .single (.removed hm)

/-! ### Messages -/

omit [Primitives] in
@[simp] theorem mem_deduplicateRoutes {message : RoutedMessage} {messages : List RoutedMessage} :
    message ∈ deduplicateRoutes messages ↔ message ∈ messages := by
  have hfold : ∀ result : List RoutedMessage,
      message ∈ messages.foldl (fun result message =>
        if message ∈ result then result else result ++ [message]) result ↔
      message ∈ result ∨ message ∈ messages := by
    induction messages with
    | nil => simp
    | cons first messages ih =>
      intro result
      rw [List.foldl_cons, ih, List.mem_cons]
      split_ifs with hseen
      · constructor
        · rintro (h | h)
          · exact .inl h
          · exact .inr (.inr h)
        · rintro (h | rfl | h)
          · exact .inl h
          · exact .inl hseen
          · exact .inr h
      · rw [List.mem_append, List.mem_singleton, or_assoc]
  have hempty := hfold []
  simpa [deduplicateRoutes] using hempty

omit [Primitives] in
theorem nodup_deduplicateRoutes (messages : List RoutedMessage) :
    (deduplicateRoutes messages).Nodup := by
  have hfold : ∀ result : List RoutedMessage, result.Nodup →
      (messages.foldl (fun result message =>
        if message ∈ result then result else result ++ [message]) result).Nodup := by
    induction messages with
    | nil => exact fun _ h => h
    | cons first messages ih =>
      intro result hresult
      rw [List.foldl_cons]
      apply ih
      split_ifs with hseen
      · exact hresult
      · rw [List.nodup_append_comm, List.singleton_append, List.nodup_cons]
        exact ⟨hseen, hresult⟩
  exact hfold [] List.nodup_nil

omit [Primitives] in
theorem mem_terminalRoutes {reason : CloseReason} {x : RoutedMessage} :
    x ∈ s.terminalRoutes id reason ↔ ∃ membership holder,
      s.routes.lookup ⟨id, membership⟩ = some holder ∧ x = route holder (.closed reason) := by
  unfold terminalRoutes
  rw [List.mem_filterMap]
  constructor
  · rintro ⟨membership, -, hx⟩
    obtain ⟨holder, hholder, rfl⟩ := Option.map_eq_some_iff.mp hx
    exact ⟨membership, holder, hholder, rfl⟩
  · rintro ⟨membership, holder, hholder, rfl⟩
    exact ⟨membership, by cases membership <;> simp, by rw [hholder]; rfl⟩

end Relay
end CbclPairing
