import CbclPairing.Relay.Batches
import CbclPairing.Relay.Loader
import CbclPairing.Runs

/-! Runs of the relay: every call keeps the index invariant, whatever the store
refuses, and none of them panics. -/
namespace CbclPairing
open Codec Calls Tables

/-- The calls that change a relay. -/
inductive RelayCall where
  | handle (connection : ConnectionId) (peerAddress : Bytes) (now : UInt64)
      (randomness : RelayRandomness) (message : ClientMessage)
  | disconnect (connection : ConnectionId)
  | sweep (now : UInt64)
  | disableAllocation
  | emergencyClose (now : UInt64)

namespace Relay

variable {C L : Type} [Primitives] [RateLimiter C L] {s : Relay C L}

def serve : RelayCall → Step C L (List RoutedMessage)
  | .handle connection peerAddress now randomness message =>
    handle connection peerAddress now randomness message
  | .disconnect connection => disconnect connection
  | .sweep now => sweep now
  | .disableAllocation => disableAllocation
  | .emergencyClose now => emergencyClose now

/-! ### One call -/

omit [Primitives] in
/-- The limiter after a command that is let through to the mailboxes. -/
def letThrough (s : Relay C L) (connection : ConnectionId) (peerAddress : Bytes) (now : UInt64)
    (message : ClientMessage) : Option L :=
  match RateLimiter.check (operation message) peerAddress now s.limiter with
  | .ok (.allowed _) limiter =>
    if message ≠ .bind ∧ !(s.connections.lookup connection).any ConnectionState.bound then none
    else some limiter
  | _ => none

/-- What a handled message comes to: the limiter or the missing bind turn it away, or it
runs as a command. -/
inductive Handled (s : Relay C L) (connection : ConnectionId) (peerAddress : Bytes)
    (now : UInt64) (randomness : RelayRandomness) (message : ClientMessage) : Reply C L → Prop
  | limited {limiter : L} : s.letThrough connection peerAddress now message = none →
      Handled s connection peerAddress now randomness message
        (.error (.error .limiter) { s with limiter })
  | turnedAway {limiter : L} {code : ℕ} : s.letThrough connection peerAddress now message = none →
      Handled s connection peerAddress now randomness message
        (.ok [route connection (.error code)] { s with limiter })
  | ran {limiter : L} {r : Reply C L} :
      s.letThrough connection peerAddress now message = some limiter →
      Outcome { s with limiter } connection now randomness message r →
      Handled s connection peerAddress now randomness message r

theorem handle_handled (h : s.Sound) (connection : ConnectionId) (peerAddress : Bytes)
    (now : UInt64) (randomness : RelayRandomness) (message : ClientMessage) :
    Handled s connection peerAddress now randomness message
      (handle connection peerAddress now randomness message s) := by
  unfold handle
  cases hcheck : RateLimiter.check (operation message) peerAddress now s.limiter with
  | error e limiter => exact .limited (by simp [letThrough, hcheck])
  | ok decision limiter =>
    cases decision with
    | cooldown retryAt => exact .turnedAway (by simp [letThrough, hcheck])
    | allowed remaining =>
      by_cases hunbound : message ≠ .bind ∧
          !(s.connections.lookup connection).any ConnectionState.bound
      · simp only [if_pos hunbound]
        exact .turnedAway (by simp only [letThrough, hcheck, if_pos hunbound])
      · simp only [if_neg hunbound]
        have hthrough : s.letThrough connection peerAddress now message = some limiter := by
          simp only [letThrough, hcheck, if_neg hunbound]
        exact .ran hthrough (command_outcome (h.withLimiter limiter) message)

/-- Every call is made of changes that keep the invariant. -/
theorem serve_changes (h : s.Sound) (call : RelayCall) :
    Changes s (Call.after (serve call s)) := by
  cases call with
  | handle connection peerAddress now randomness message =>
    have hhandled := handle_handled h connection peerAddress now randomness message
    show Changes s (Call.after (handle connection peerAddress now randomness message s))
    generalize handle connection peerAddress now randomness message s = r at hhandled
    cases hhandled with
    | @limited limiter => exact .single (.limited limiter)
    | @turnedAway limiter => exact .single (.limited limiter)
    | @ran limiter _ _ houtcome =>
      exact .head (.limited limiter) (houtcome.changes (h.withLimiter limiter))
  | disconnect connection =>
    show Changes s (Call.after (disconnect connection s))
    unfold disconnect
    cases hstate : s.connections.lookup connection with
    | none => exact .refl
    | some state =>
      have hmember : s.membershipOf connection = state.membership := by
        simp [membershipOf, membershipIn, hstate]
      have hleft := Change.left (s := s) connection
      rw [leftBy, hmember] at hleft
      exact .single hleft
  | sweep now =>
    show Changes s (Call.after (sweep now s))
    unfold sweep
    cases RateLimiter.sweepIfDue now s.limiter with
    | error e limiter => exact .single (.limited limiter)
    | ok u limiter =>
      have hlimited := h.withLimiter limiter
      exact .head (.limited limiter)
        (sweepLoop_swept hlimited (s.expiries.card + 1) (Nat.lt_succ_self _)).changes
  | disableAllocation => exact .single .disabled
  | emergencyClose now =>
    have hdisabled : s.disabled.Sound := Change.disabled.sound h
    have hcloses := closeEach_closes hdisabled now (s.mailboxes.keys.sort idLe)
    show Changes s (Call.after (emergencyClose now s))
    rw [emergencyClose_eq, after_mapped]
    exact .head .disabled (hcloses.changes hdisabled)

omit [RateLimiter C L] in
/-- The faults a call of a sound relay may end in. -/
def Foreseen (fault : Fault RelayError) : Prop :=
  fault = .error .limiter ∨ fault = .error .storage ∨ fault = .aborted

omit [RateLimiter C L] in
theorem Outcome.foreseen {connection : ConnectionId} {now : UInt64}
    {randomness : RelayRandomness} {message : ClientMessage} {r : Reply C L}
    (hr : Outcome s connection now randomness message r) {fault : Fault RelayError}
    (hfault : Call.verdict r = .error fault) : Foreseen fault := by
  cases hr with
  | refused =>
    obtain rfl := Except.error.inj hfault
    exact .inr (.inl rfl)
  | aborted =>
    obtain rfl := Except.error.inj hfault
    exact .inr (.inr rfl)
  | replied | bound | retained | claimed | crowded | opened | member | expired =>
    cases hfault

omit [Primitives] [RateLimiter C L] in
theorem verdict_mapped {f : List RoutedMessage → List RoutedMessage} {r : Reply C L}
    {fault : Fault RelayError} (h : Call.verdict (mapped f r) = .error fault) :
    Call.verdict r = .error fault := by
  cases r with
  | ok => cases h
  | error => exact h

omit [Primitives] [RateLimiter C L] in
theorem Swept.foreseen {now : UInt64} {r : Reply C L} (hr : Swept now s r)
    {fault : Fault RelayError} (hfault : Call.verdict r = .error fault) : Foreseen fault := by
  induction hr with
  | done => cases hfault
  | refused =>
    obtain rfl := Except.error.inj hfault
    exact .inr (.inl rfl)
  | reaped _ _ _ _ _ ih => exact ih (verdict_mapped hfault)

omit [Primitives] [RateLimiter C L] in
theorem Closes.foreseen {now : UInt64} {ids : List (Octets 32)} {r : Reply C L}
    (hr : Closes now ids s r) {fault : Fault RelayError}
    (hfault : Call.verdict r = .error fault) : Foreseen fault := by
  induction hr with
  | done => cases hfault
  | skipped _ _ ih => exact ih hfault
  | refused =>
    obtain rfl := Except.error.inj hfault
    exact .inr (.inl rfl)
  | reaped _ _ _ _ _ ih | closed _ _ _ _ _ ih => exact ih (verdict_mapped hfault)

theorem serve_foreseen (h : s.Sound) (call : RelayCall) {fault : Fault RelayError}
    (hfault : Call.verdict (serve call s) = .error fault) : Foreseen fault := by
  cases call with
  | handle connection peerAddress now randomness message =>
    have hhandled := handle_handled h connection peerAddress now randomness message
    change Call.verdict (handle connection peerAddress now randomness message s) = _ at hfault
    generalize handle connection peerAddress now randomness message s = r at hhandled hfault
    cases hhandled with
    | limited =>
      obtain rfl := Except.error.inj hfault
      exact .inl rfl
    | turnedAway => cases hfault
    | ran _ houtcome => exact houtcome.foreseen hfault
  | disconnect connection =>
    change Call.verdict (disconnect connection s) = _ at hfault
    unfold disconnect at hfault
    cases hstate : s.connections.lookup connection with
    | none => simp [hstate] at hfault
    | some state => simp [hstate] at hfault
  | sweep now =>
    change Call.verdict (sweep now s) = _ at hfault
    unfold sweep at hfault
    cases hsweep : RateLimiter.sweepIfDue now s.limiter with
    | error e limiter =>
      rw [hsweep] at hfault
      obtain rfl := Except.error.inj hfault
      exact .inl rfl
    | ok u limiter =>
      rw [hsweep] at hfault
      have hlimited := h.withLimiter limiter
      exact (sweepLoop_swept hlimited (s.expiries.card + 1) (Nat.lt_succ_self _)).foreseen hfault
  | disableAllocation => cases hfault
  | emergencyClose now =>
    have hdisabled : s.disabled.Sound := Change.disabled.sound h
    change Call.verdict (emergencyClose now s) = _ at hfault
    rw [emergencyClose_eq] at hfault
    exact (closeEach_closes hdisabled now _).foreseen (verdict_mapped hfault)

/-! ### Runs -/

theorem run_sound (h : s.Sound) (calls : List RelayCall) : (Runs.after serve s calls).Sound :=
  Runs.invariant (P := fun _ s => s.Sound) serve h
    (fun _ call hsound => (serve_changes hsound call).sound hsound) calls

/-- After any calls on a constructed relay every index is exact, the caps hold, and routes
and memberships are inverse to each other; no call panics, diverges or finds its
configuration invalid. The store may refuse any write. -/
theorem index_invariant {config : RelayConfig C} {store : MailboxStore} {s₀ : Relay C L}
    (hstart : withStore config store = .ok s₀) (calls : List RelayCall) :
    (Runs.after serve s₀ calls).Sound ∧ ∀ call fault,
      Call.verdict (serve call (Runs.after serve s₀ calls)) = .error fault →
      fault ≠ .panicked ∧ fault ≠ .diverged ∧ fault ≠ .error .invalidConfiguration := by
  have hsound := run_sound (withStore_sound hstart).1 calls
  refine ⟨hsound, ?_⟩
  intro call fault hfault
  obtain rfl | rfl | rfl := serve_foreseen hsound call hfault <;> simp

end Relay

/-! ### A relay over an empty store -/

section Sample

attribute [local instance] Primitives.transparent

/-- A limiter that has not used up any of its tokens. -/
@[reducible] def RateLimiter.idle : RateLimiter ℕ Unit where
  entryCap entries := entries
  new _ _ := some ()
  check _ _ _ := fun s => .ok (.allowed 1) s
  sweepIfDue _ := fun s => .ok () s

attribute [local instance] RateLimiter.idle

def RelayConfig.sample : RelayConfig ℕ where
  operatorKey := ⟨List.replicate 32 7, rfl⟩
  limiter := 4
  capacity := ⟨2, 100000, 4⟩
  allocationEnabled := true

theorem Relay.withStore_sample (faults : List Bool) :
    Relay.withStore RelayConfig.sample ⟨∅, faults⟩ =
      .ok (Relay.unloaded RelayConfig.sample () ⟨∅, faults⟩) := by
  rw [Relay.withStore_eq_ok]
  refine ⟨(), [], ?_, rfl, ?_, rfl, ?_, ?_⟩
  · decide
  · simp only [MailboxStore.load, Finmap.keys_empty, Finset.sort_empty]
    rfl
  · simp [Relay.unloaded, Table.size]
  · simp [Relay.unloaded]

def RelayCall.sample : List RelayCall :=
  let randomness : RelayRandomness :=
    ⟨⟨List.replicate 32 1, rfl⟩, ⟨List.replicate 32 2, rfl⟩, 17⟩
  [.handle 1 [] 0 randomness .bind, .handle 1 [] 0 randomness (.allocate 1 none),
    .handle 1 [] 1 randomness (.put 0 [5]), .disconnect 1, .emergencyClose 2, .sweep 900]

def Relay.afterSample (faults : List Bool) : Relay ℕ Unit :=
  Runs.after Relay.serve (Relay.unloaded RelayConfig.sample () ⟨∅, faults⟩) RelayCall.sample

theorem Relay.index_invariant_sample : (Relay.afterSample [false, true]).Sound ∧
    ∀ call fault, Call.verdict (Relay.serve call (Relay.afterSample [false, true])) =
      .error fault → fault ≠ .panicked ∧ fault ≠ .diverged ∧
      fault ≠ .error .invalidConfiguration :=
  Relay.index_invariant (Relay.withStore_sample [false, true]) RelayCall.sample

end Sample
end CbclPairing
