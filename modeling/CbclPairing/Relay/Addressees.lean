import CbclPairing.Relay.Isolation
import CbclPairing.Relay.Notices
import CbclPairing.Relay.Replies

/-! Whom the relay sends to: the connection that acts, and connections it has routes to,
which have acted before. -/
namespace CbclPairing
open Codec Calls Tables

/-- The connection a call is made for. -/
def RelayCall.actor? : RelayCall → Option ConnectionId
  | .handle connection .. => some connection
  | _ => none

namespace Relay

variable {C L : Type} [Primitives] {s : Relay C L} {connection : ConnectionId}
  {now : UInt64} {randomness : RelayRandomness} {message : ClientMessage}
  {r : EStateM.Result (Fault RelayError) (Relay C L) (List RoutedMessage)} {x : RoutedMessage}

/-- A connection the relay has a route to. -/
def Routed (s : Relay C L) (connection : ConnectionId) : Prop :=
  ∃ key, s.routes.lookup key = some connection

omit [Primitives] in
theorem routed_of_terminal {id : Octets 32} {reason : CloseReason}
    (hx : x ∈ s.terminalRoutes id reason) : s.Routed x.connection := by
  obtain ⟨membership, holder, hroute, rfl⟩ := mem_terminalRoutes.mp hx
  exact ⟨_, hroute⟩

omit [Primitives] in
theorem routed_of_dispatch {id : Octets 32} {effect : MailboxEffect}
    (hx : x ∈ s.dispatch id effect) :
    s.Routed x.connection := by
  cases effect with
  | deliver recipient peerSeq body =>
    rw [dispatch, Option.mem_toList] at hx
    obtain ⟨holder, hroute, rfl⟩ := Option.map_eq_some_iff.mp hx
    exact ⟨_, hroute⟩
  | terminal reason => exact routed_of_terminal hx
  | _ => cases hx

theorem Outcome.addressees (hr : Outcome s connection now randomness message r)
    (hx : x ∈ Runs.effects r) : x.connection = connection ∨ s.Routed x.connection := by
  have hown : ∀ {reply : ServerMessage}, x ∈ [route connection reply] →
      x.connection = connection := by
    intro reply hmem
    rw [List.mem_singleton.mp hmem]
    rfl
  cases hr with
  | refused | aborted => cases hx
  | replied | bound | retained | claimed => exact .inl (hown hx)
  | crowded =>
    rw [Runs.effects_ok, mem_deduplicateRoutes, List.mem_append] at hx
    rcases hx with hx | hx
    · exact .inr (routed_of_terminal hx)
    · exact .inl (hown hx)
  | opened =>
    obtain ⟨effect, heffect, hsent⟩ := List.mem_filterMap.mp hx
    cases effect with
    | deliver recipient peerSeq body =>
      rw [← Option.some.inj hsent]
      exact .inl rfl
    | _ => cases hsent
  | @member _ kind =>
    rw [Runs.effects_ok, memberMessages, mem_deduplicateRoutes, List.mem_append] at hx
    rcases hx with hx | hx
    · cases kind with
      | put seq body =>
        dsimp only [confirmation] at hx
        split_ifs at hx
        · exact .inl (hown hx)
        · cases hx
      | ack | close => cases hx
    · obtain ⟨effect, -, hsent⟩ := List.mem_flatMap.mp hx
      exact .inr (routed_of_dispatch hsent)
  | expired =>
    cases message with
    | claim | openMailbox =>
      dsimp only [Runs.effects_ok, expiryMessages] at hx
      split_ifs at hx <;> exact .inl (hown hx)
    | claimV2 => exact .inl (hown hx)
    | _ =>
      dsimp only [Runs.effects_ok, expiryMessages] at hx
      split_ifs at hx
      · cases hx
      · exact .inr (routed_of_terminal (mem_deduplicateRoutes.mp hx))

variable [RateLimiter C L]

theorem handle_addressees (h : s.Sound) {peerAddress : Bytes}
    (hx : x ∈ Runs.effects (handle connection peerAddress now randomness message s)) :
    x.connection = connection ∨ s.Routed x.connection := by
  have hhandled := handle_handled h connection peerAddress now randomness message
  generalize handle connection peerAddress now randomness message s = r at hhandled hx
  cases hhandled with
  | limited => cases hx
  | turnedAway =>
    rw [List.mem_singleton.mp hx]
    exact .inl rfl
  | ran _ houtcome => exact houtcome.addressees hx

theorem sweep_addressees (h : s.Sound) (hx : x ∈ Runs.effects (sweep now s)) :
    s.Routed x.connection := by
  unfold sweep at hx
  cases hsweep : RateLimiter.sweepIfDue now s.limiter with
  | error e limiter =>
    rw [hsweep] at hx
    cases hx
  | ok u limiter =>
    rw [hsweep] at hx
    have hswept : Swept now _ _ :=
      sweepLoop_swept (h.withLimiter limiter) (s.expiries.card + 1) (Nat.lt_succ_self _)
    exact hswept.attached hx

/-- A call adds no route but to the connection that acts. -/
theorem serve_routed (h : s.Sound) (call : RelayCall) {holder : ConnectionId}
    (hholder : (Call.after (serve call s)).Routed holder) :
    call.actor? = some holder ∨ s.Routed holder := by
  obtain ⟨key, hroute⟩ := hholder
  have hafter := (serve_changes h call).sound h
  have hmember := (hafter.inverse key holder).mp hroute
  obtain hgrants | ⟨hbefore, -⟩ := serve_granted h call holder key hmember
  · cases call with
    | handle connection peerAddress now randomness message =>
      left
      rw [hgrants.actor]
      rfl
    | _ => cases hgrants
  · exact .inr ⟨key, (h.inverse key holder).mpr hbefore⟩

end Relay
end CbclPairing
