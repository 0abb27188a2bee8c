import CbclPairing.Contracts
import CbclPairing.Relay.Isolation
import CbclPairing.Relay.Notices
import CbclPairing.Wire.ServerReplies

/-! Every reply of a reachable relay is inside the bounds of the schema, and is encoded. -/
namespace CbclPairing
open Codec Calls Tables

/-- An error reply has a code of the closed set. -/
def ServerMessage.Coded : ServerMessage → Prop
  | .error code => code ∈ errorCodes
  | _ => True

theorem mailboxError_coded (e : MailboxError) : (mailboxError e).Coded := by
  cases e with
  | closed reason => trivial
  | sequenceGap expected got =>
    show 409 ∈ errorCodes
    decide
  | _ =>
    show MailboxError.wireCode _ ∈ errorCodes
    decide

namespace Relay

/-! ### Error codes -/

section Codes

variable {C L : Type} {s : Relay C L} {connection : ConnectionId} {id : Octets 32}

/-- What a call returns holds no error with a code outside the schema. -/
def Codes (x : Step C L (List RoutedMessage)) : Prop := ∀ s,
  x.Meets (fun messages _ => ∀ m ∈ messages, m.message.Coded) (fun _ _ => True) s

theorem codes_one {reply : ServerMessage} (h : reply.Coded) :
    Codes (pure [route connection reply] : Step C L (List RoutedMessage)) := by
  intro s m hm
  rw [List.mem_singleton.mp hm]
  exact h

theorem codes_error {code : ℕ} (h : code ∈ errorCodes) :
    Codes (pure [route connection (.error code)] : Step C L (List RoutedMessage)) :=
  codes_one h

theorem codes_bind {α : Type} {x : Step C L α} {f : α → Step C L (List RoutedMessage)}
    (h : ∀ a, Codes (f a)) : Codes (x >>= f) := fun _ => Call.meets_last fun a t => h a t

theorem codes_throw (e : Fault RelayError) : Codes (throw e : Step C L (List RoutedMessage)) :=
  fun _ => trivial

/-- Closing notices carry no code. -/
theorem terminalRoutes_coded (reason : CloseReason) {m : RoutedMessage}
    (hm : m ∈ s.terminalRoutes id reason) : m.message.Coded := by
  obtain ⟨membership, holder, -, rfl⟩ := mem_terminalRoutes.mp hm
  trivial

theorem closing_codes (reason : CloseReason) :
    Codes (closing connection id reason : Step C L (List RoutedMessage)) := by
  apply codes_bind
  intro s t m hm
  rw [mem_deduplicateRoutes, List.mem_append] at hm
  rcases hm with hm | hm
  · exact terminalRoutes_coded reason hm
  · rw [List.mem_singleton.mp hm]
    trivial

theorem answered_codes {result : Except (Fault MailboxError) MailboxTransition}
    {next : MailboxTransition → Step C L (List RoutedMessage)} (h : ∀ t, Codes (next t)) :
    Codes (answered connection result next) := by
  cases result with
  | ok t => exact h t
  | error fault =>
    cases fault with
    | error e => exact codes_one (mailboxError_coded e)
    | panicked | aborted | diverged => exact codes_throw _

theorem delivered_coded {effects : List MailboxEffect} {m : RoutedMessage}
    (hm : m ∈ delivered connection effects) : m.message.Coded := by
  obtain ⟨effect, -, hsent⟩ := List.mem_filterMap.mp hm
  cases effect with
  | deliver recipient peerSeq body =>
    rw [← Option.some.inj hsent]
    trivial
  | _ => cases hsent

theorem memberMessages_coded {kind : MailboxCommandKind} {effects : List MailboxEffect}
    {m : RoutedMessage} (hm : m ∈ s.memberMessages connection kind id effects) :
    m.message.Coded := by
  unfold memberMessages at hm
  rw [mem_deduplicateRoutes, List.mem_append] at hm
  rcases hm with hm | hm
  · cases kind with
    | put seq body =>
      dsimp only [confirmation] at hm
      split_ifs at hm
      · rw [List.mem_singleton.mp hm]
        trivial
      · cases hm
    | ack | close => cases hm
  · obtain ⟨effect, -, hsent⟩ := List.mem_flatMap.mp hm
    cases effect with
    | deliver recipient peerSeq body =>
      rw [dispatch, Option.mem_toList] at hsent
      obtain ⟨holder, -, rfl⟩ := Option.map_eq_some_iff.mp hsent
      trivial
    | terminal reason => exact terminalRoutes_coded reason hsent
    | _ => cases hsent

theorem chooseNameplate_error {locatorMode : UInt8} {nameplate code : ℕ}
    (h : s.chooseNameplate locatorMode nameplate = .error code) : code ∈ errorCodes := by
  unfold chooseNameplate at h
  split_ifs at h
  · rw [← Except.error.inj h]
    decide
  · rw [← Except.error.inj h]
    decide

theorem retain_codes (m : Mailbox) {reply : ServerMessage} (h : reply.Coded) :
    Codes (retain connection m reply : Step C L (List RoutedMessage)) := by
  apply codes_bind
  intro _
  apply codes_bind
  intro _
  exact codes_one h

theorem settleClaim_codes (membershipToken : Octets 32) (t : MailboxTransition) :
    Codes (settleClaim connection id membershipToken t : Step C L (List RoutedMessage)) := by
  apply codes_bind
  intro _
  cases claimedAt t.effects with
  | some expiresAt =>
    apply codes_bind
    intro _
    exact codes_one trivial
  | none =>
    cases terminalReason t.effects with
    | some reason => exact closing_codes reason
    | none => exact codes_error (by decide)

theorem settleClaimV2_codes (membershipToken : Octets 32) (t : MailboxTransition) :
    Codes (settleClaimV2 connection id membershipToken t : Step C L (List RoutedMessage)) := by
  apply codes_bind
  intro _
  cases claimedAt t.effects with
  | some expiresAt =>
    apply codes_bind
    intro _
    exact codes_one trivial
  | none => exact codes_error (by decide)

theorem settleOpen_codes (t : MailboxTransition) :
    Codes (settleOpen connection id t : Step C L (List RoutedMessage)) := by
  apply codes_bind
  intro _
  cases openedAs t.effects with
  | some membership =>
    apply codes_bind
    intro _ s m hm
    exact delivered_coded hm
  | none =>
    cases terminalReason t.effects with
    | some reason => exact closing_codes reason
    | none => exact codes_error (by decide)

theorem settleMember_codes (kind : MailboxCommandKind) (t : MailboxTransition) :
    Codes (settleMember connection kind id t : Step C L (List RoutedMessage)) := by
  apply codes_bind
  intro s
  split_ifs
  · exact codes_error (by decide)
  · apply codes_bind
    intro _ u m hm
    exact memberMessages_coded hm

variable [Primitives] {now : UInt64} {randomness : RelayRandomness}

theorem allocate_codes (locatorMode : UInt8) (ttlSeconds : Option ℕ) :
    Codes (allocate connection now randomness locatorMode ttlSeconds :
      Step C L (List RoutedMessage)) := by
  apply codes_bind
  intro s
  split_ifs
  · exact codes_error (by decide)
  · exact codes_error (by decide)
  · exact codes_error (by decide)
  · cases hchosen : s.chooseNameplate locatorMode randomness.nameplate with
    | error code => exact codes_error (chooseNameplate_error hchosen)
    | ok nameplate =>
      dsimp only
      cases Mailbox.allocate _ with
      | error e => exact codes_one (mailboxError_coded e)
      | ok m => exact retain_codes m trivial

theorem allocateV2_codes (mailboxId commitment : Octets 32) (ttlSeconds : Option ℕ) :
    Codes (allocateV2 connection now randomness.membershipToken mailboxId commitment ttlSeconds :
      Step C L (List RoutedMessage)) := by
  apply codes_bind
  intro s
  split_ifs
  · exact codes_error (by decide)
  · exact codes_error (by decide)
  · exact codes_error (by decide)
  · cases Mailbox.allocateV2 _ with
    | error e => exact codes_one (mailboxError_coded e)
    | ok m => exact retain_codes m trivial

theorem claim_codes (locator : Locator) :
    Codes (claim connection now randomness.membershipToken locator :
      Step C L (List RoutedMessage)) := by
  apply codes_bind
  intro s
  split_ifs
  · exact codes_error (by decide)
  · cases s.resolve locator with
    | none => exact codes_error (by decide)
    | some id => exact codes_error (by decide)
  · cases s.resolve locator with
    | none => exact codes_error (by decide)
    | some id =>
      dsimp only
      cases s.mailboxes.lookup id with
      | none => exact codes_error (by decide)
      | some m => exact answered_codes (settleClaim_codes randomness.membershipToken)

theorem claimV2_codes (mailboxId : Octets 32) (token : ClaimToken) :
    Codes (claimV2 connection now randomness.membershipToken mailboxId token :
      Step C L (List RoutedMessage)) := by
  apply codes_bind
  intro s
  split_ifs
  · exact codes_error (by decide)
  · exact codes_error (by decide)
  · cases s.mailboxes.lookup mailboxId with
    | none => exact codes_error (by decide)
    | some m => exact answered_codes (settleClaimV2_codes randomness.membershipToken)

theorem openMailbox_codes (mailboxId membershipToken : Octets 32) :
    Codes (openMailbox connection now mailboxId membershipToken :
      Step C L (List RoutedMessage)) := by
  apply codes_bind
  intro s
  cases s.mailboxes.lookup mailboxId with
  | none => exact codes_error (by decide)
  | some m => exact answered_codes settleOpen_codes

theorem memberCommand_codes (kind : MailboxCommandKind) :
    Codes (memberCommand connection now kind : Step C L (List RoutedMessage)) := by
  apply codes_bind
  intro s
  cases s.membershipOf connection with
  | none => exact codes_error (by decide)
  | some session =>
    dsimp only
    cases s.mailboxes.lookup session.mailboxId with
    | none => exact codes_error (by decide)
    | some m =>
      dsimp only
      split_ifs
      · exact codes_throw _
      · exact answered_codes (settleMember_codes kind)

theorem command_codes (message : ClientMessage) :
    Codes (command connection now randomness message : Step C L (List RoutedMessage)) := by
  cases message with
  | bind =>
    apply codes_bind
    intro _
    exact codes_one trivial
  | allocate locatorMode ttlSeconds => exact allocate_codes locatorMode ttlSeconds
  | claim locator => exact claim_codes locator
  | allocateV2 mailboxId commitment ttlSeconds =>
    exact allocateV2_codes mailboxId commitment ttlSeconds
  | claimV2 mailboxId token => exact claimV2_codes mailboxId token
  | openMailbox mailboxId membershipToken => exact openMailbox_codes mailboxId membershipToken
  | put seq body => exact memberCommand_codes (.put seq body)
  | ack peerSeq => exact memberCommand_codes (.ack peerSeq)
  | close => exact memberCommand_codes .close
  | ping => exact codes_one trivial

variable [RateLimiter C L]

theorem handle_codes (peerAddress : Bytes) (message : ClientMessage) :
    Codes (handle connection peerAddress now randomness message : Step C L _) := by
  intro s
  unfold Call.Meets handle
  cases RateLimiter.check (operation message) peerAddress now s.limiter with
  | error e limiter => trivial
  | ok decision limiter =>
    cases decision with
    | cooldown retryAt =>
      have hcooldown : Codes (pure [route connection (.error 429)] : Step C L _) :=
        codes_error (by decide)
      exact hcooldown s
    | allowed remaining =>
      have hunbound : Codes (pure [route connection (.error 400)] : Step C L _) :=
        codes_error (by decide)
      dsimp only
      split_ifs
      · exact hunbound s
      · exact command_codes message _

end Codes

/-! ### Bounds -/

section Bounds

variable {C L : Type} [Primitives] {s : Relay C L} {id : Octets 32} {m : Mailbox}
  {connection : ConnectionId} {now : UInt64} {randomness : RelayRandomness}
  {message : ClientMessage} {r : Reply C L} {x : RoutedMessage}

/-- A frame that a recorded mailbox keeps fits the schema. -/
theorem frame_bounded (h : m.Recorded) {owner : Membership} {f : FrameRecord}
    (hf : f ∈ m.framesOf owner) {body : Bytes} (hbody : f.body = some body) :
    (ServerMessage.frame f.seq body).Bounded := by
  unfold Mailbox.framesOf at hf
  cases hmember : m.member owner with
  | none =>
    rw [hmember] at hf
    cases hf
  | some member =>
    rw [hmember] at hf
    have hsound := h.member hmember
    have hseq : f.seq.toNat ∈ List.range member.frames.length := by
      rw [← hsound.numbered]
      exact List.mem_map_of_mem hf
    have hbounded := hsound.bounded
    have hframe := hsound.frames f hf
    have hlength := (hframe.body body hbody).1
    have hpos := hframe.pos
    have hle := hframe.le
    rw [List.mem_range] at hseq
    simp only [maxFramesPerMembership, maxFrameBodyBytes] at hbounded hle
    refine ⟨?_, ?_, ?_⟩
    · omega
    · omega
    · omega

omit [Primitives] in
theorem bounded_of_plain {reply : ServerMessage} (hplain : plain reply = true)
    (hcoded : reply.Coded) : reply.Bounded := by
  cases reply with
  | error code => exact hcoded
  | closed | pong => trivial
  | _ => cases hplain

omit [Primitives] in
theorem terminalRoutes_bounded {reason : CloseReason} (hx : x ∈ s.terminalRoutes id reason) :
    x.message.Bounded := by
  obtain ⟨membership, holder, -, rfl⟩ := mem_terminalRoutes.mp hx
  trivial

/-- Only a sequence of the member itself is confirmed. -/
theorem confirmation_bounded {kind : MailboxCommandKind} {sender : Membership} {m' : Mailbox}
    {effects : List MailboxEffect} (h : m.Recorded)
    (hmoves : Mailbox.Moves m (kind.by sender) effects m')
    (hx : x ∈ confirmation connection effects kind) : x.message.Bounded := by
  cases kind with
  | ack | close => cases hx
  | put seq body =>
    dsimp only [confirmation, MailboxCommandKind.by] at hx hmoves
    split_ifs at hx with hstored
    · rw [List.mem_singleton.mp hx]
      show seq.toNat ≤ 15
      cases hmoves with
      | @repeated _ member _ _ _ _ hmember hlt =>
        have hsound := h.member hmember
        have hnext := hsound.next
        have hbounded := hsound.bounded
        have hseq := UInt8.lt_iff_toNat_lt.mp hlt
        simp only [maxFramesPerMembership] at hbounded
        omega
      | @stored _ member _ _ hmember hroom =>
        have hnext := (h.member hmember).next
        simp only [maxFramesPerMembership] at hroom
        omega
      | ended =>
        -- an end stores nothing
        obtain ⟨effect, heffect, hsame⟩ := List.any_eq_true.mp hstored
        rcases List.mem_append.mp heffect with hmem | hmem
        · obtain ⟨owner, deleted, rfl⟩ := Mailbox.mem_deletions hmem
          cases hsame
        · rw [List.mem_singleton.mp hmem] at hsame
          cases hsame
    · cases hx

theorem Outcome.bounded (hr : Outcome s connection now randomness message r) (h : s.Sound)
    (hx : x ∈ Runs.effects r) (hcoded : x.message.Coded) : x.message.Bounded := by
  cases hr with
  | refused | aborted => cases hx
  | replied _ hplain =>
    rw [List.mem_singleton.mp hx] at hcoded ⊢
    exact bounded_of_plain hplain hcoded
  | bound =>
    rw [List.mem_singleton.mp hx]
    trivial
  | retained _ hfits _ _ hreply =>
    rw [List.mem_singleton.mp hx]
    cases hreply with
    | v1 => exact hfits.recorded.nameplate
    | v2 => trivial
  | claimed _ _ _ _ _ hreply =>
    rw [List.mem_singleton.mp hx]
    cases hreply with
    | v1 => trivial
    | v2 => trivial
  | crowded =>
    rw [Runs.effects_ok, mem_deduplicateRoutes, List.mem_append] at hx
    rcases hx with hx | hx
    · exact terminalRoutes_bounded hx
    · rw [List.mem_singleton.mp hx]
      trivial
  | @opened id token m membership hm =>
    obtain ⟨effect, heffect, hsent⟩ := List.mem_filterMap.mp hx
    obtain ⟨f, hf, hdeliver⟩ := List.mem_filterMap.mp heffect
    obtain ⟨body, hbody, rfl⟩ := Option.map_eq_some_iff.mp hdeliver
    rw [← Option.some.inj hsent]
    exact frame_bounded (h.recorded id m hm) hf hbody
  | @member _ kind key m m' effects _ hkey hm _ _ hmoves =>
    have hrecorded := h.recorded key.mailboxId m hm
    rw [Runs.effects_ok, memberMessages, mem_deduplicateRoutes, List.mem_append] at hx
    rcases hx with hx | hx
    · exact confirmation_bounded hrecorded hmoves hx
    · obtain ⟨effect, heffect, hsent⟩ := List.mem_flatMap.mp hx
      cases effect with
      | deliver recipient peerSeq body =>
        rw [dispatch, Option.mem_toList] at hsent
        obtain ⟨holder, -, rfl⟩ := Option.map_eq_some_iff.mp hsent
        obtain ⟨f, hf, rfl, hbody⟩ := hmoves.delivered_queued heffect
        exact frame_bounded (hmoves.recorded hrecorded) hf hbody
      | terminal reason => exact terminalRoutes_bounded hsent
      | _ => cases hsent
  | expired => exact bounded_of_plain (expiryMessages_plain hx) hcoded

omit [Primitives] in
theorem Swept.bounded (hr : Swept now s r) (hx : x ∈ Runs.effects r) : x.message.Bounded := by
  induction hr with
  | done => cases hx
  | refused => cases hx
  | @reaped s id m r _ _ _ _ _ ih =>
    cases r with
    | error e s' => cases hx
    | ok rest s' =>
      rcases List.mem_append.mp hx with hx | hx
      · exact terminalRoutes_bounded hx
      · exact ih hx

omit [Primitives] in
theorem Closes.bounded {ids : List (Octets 32)} (hr : Closes now ids s r)
    (hx : x ∈ Runs.effects r) : x.message.Bounded := by
  induction hr with
  | done => cases hx
  | skipped _ _ ih => exact ih hx
  | refused => cases hx
  | @reaped id ids s m r _ _ _ _ _ ih | @closed id ids s m r _ _ _ _ _ ih =>
    cases r with
    | error e s' => cases hx
    | ok rest s' =>
      rcases List.mem_append.mp hx with hx | hx
      · exact terminalRoutes_bounded hx
      · exact ih hx

/-! ### Runs -/

variable [RateLimiter C L]

theorem handle_bounded (h : s.Sound) (peerAddress : Bytes)
    (hx : x ∈ Runs.effects (handle connection peerAddress now randomness message s)) :
    x.message.Bounded := by
  have hcoded : x.message.Coded := by
    cases hrun : handle connection peerAddress now randomness message s with
    | ok messages s' =>
      rw [hrun] at hx
      exact (handle_codes peerAddress message s).ok hrun x hx
    | error e s' =>
      rw [hrun] at hx
      cases hx
  have hhandled := handle_handled h connection peerAddress now randomness message
  generalize handle connection peerAddress now randomness message s = r at hhandled hx
  cases hhandled with
  | limited => cases hx
  | turnedAway =>
    rw [List.mem_singleton.mp hx] at hcoded ⊢
    exact hcoded
  | @ran limiter _ _ houtcome => exact houtcome.bounded (h.withLimiter limiter) hx hcoded

theorem sweep_bounded (h : s.Sound) (now : UInt64)
    (hx : x ∈ Runs.effects (sweep now s)) : x.message.Bounded := by
  unfold sweep at hx
  cases hsweep : RateLimiter.sweepIfDue now s.limiter with
  | error e limiter =>
    rw [hsweep] at hx
    cases hx
  | ok u limiter =>
    rw [hsweep] at hx
    have hswept : Swept now _ _ :=
      sweepLoop_swept (h.withLimiter limiter) (s.expiries.card + 1) (Nat.lt_succ_self _)
    exact hswept.bounded hx

omit [RateLimiter C L] in
theorem emergencyClose_bounded (h : s.Sound) (now : UInt64)
    (hx : x ∈ Runs.effects (emergencyClose now s)) : x.message.Bounded := by
  have hdisabled : s.disabled.Sound := Change.disabled.sound h
  have hcloses := closeEach_closes hdisabled now (s.mailboxes.keys.sort idLe)
  rw [emergencyClose_eq] at hx
  cases hrun : closeEach now (s.mailboxes.keys.sort idLe) s.disabled with
  | error e s' =>
    rw [hrun] at hx
    cases hx
  | ok messages s' =>
    rw [hrun] at hx hcloses
    exact hcloses.bounded (mem_deduplicateRoutes.mp hx)

theorem serve_bounded (h : s.Sound) (call : RelayCall)
    (hx : x ∈ Runs.effects (serve call s)) : x.message.Bounded := by
  cases call with
  | handle connection peerAddress now randomness message => exact handle_bounded h peerAddress hx
  | disconnect connection =>
    change x ∈ Runs.effects (disconnect connection s) at hx
    unfold disconnect at hx
    cases hstate : s.connections.lookup connection with
    | none =>
      rw [hstate] at hx
      cases hx
    | some state =>
      rw [hstate] at hx
      cases hx
  | sweep now => exact sweep_bounded h now hx
  | disableAllocation => cases hx
  | emergencyClose now => exact emergencyClose_bounded h now hx

end Bounds

end Relay

/-! ### The notice of an expiry -/

section Sample

attribute [local instance] Primitives.transparent
attribute [local instance] RateLimiter.idle

namespace Relay

end Relay

end Sample
end CbclPairing
