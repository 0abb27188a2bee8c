import CbclPairing.Calls
import CbclPairing.CredentialV2.Frame

/-! The relay membership and sequence projection both sessions keep. -/
namespace CbclPairing
namespace CredentialV2
open Codec Calls

/-- Relay membership and the sequences of one side. -/
structure RelayState where
  membershipToken : Octets 32
  nextLocalSequence : UInt8
  nextPeerSequence : UInt8
  awaitingAck : Bool
  cachedOutbound : Option Frame
  deriving DecidableEq

/-- The put of one encoded frame. -/
def putMessage (sequence : UInt8) (frame : Frame) : Except Error ClientMessage := do
  let body ← encodeFrame frame
  relayMessage (.put sequence body)

theorem putMessage_eq_ok {sequence : UInt8} {frame : Frame} {message : ClientMessage} :
    putMessage sequence frame = .ok message ↔ ∃ body, encodeFrame frame = .ok body ∧
      ClientMessage.recognised (.put sequence body) = true ∧ message = .put sequence body := by
  simp only [putMessage, Calls.except_bind_eq_ok, relayMessage_eq_ok, eq_comm (b := message)]

namespace RelayState

def new (membershipToken : Octets 32) : RelayState := ⟨membershipToken, 0, 0, false, none⟩

def acceptPeerSequence (sequence : UInt8) : Call Error RelayState Unit := do
  let r ← get
  if sequence ≠ r.nextPeerSequence then throw .counter
  else do
    let next ← Call.orThrow .counter (checkedSucc r.nextPeerSequence)
    set { r with nextPeerSequence := next }

def queueBootstrapFrame : Call Error RelayState UInt8 := do
  let r ← get
  if r.awaitingAck ∨ r.cachedOutbound.isSome then throw .phase
  else do
    let next ← Call.orThrow .counter (checkedSucc r.nextLocalSequence)
    set { r with nextLocalSequence := next, awaitingAck := true }
    pure r.nextLocalSequence

def acknowledgeBootstrapFrame (sequence : UInt8) : Call Error RelayState Unit := do
  let r ← get
  let expected ← Call.orThrow .counter (checkedPred r.nextLocalSequence)
  if !r.awaitingAck ∨ sequence ≠ expected ∨ r.cachedOutbound.isSome then throw .counter
  else set { r with awaitingAck := false }

/-- Sequences this projection already saw acknowledged. -/
def acknowledgementAlreadyApplied (r : RelayState) (sequence : UInt8) : Bool :=
  match checkedPred r.nextLocalSequence with
  | none => false
  | some lastSent => sequence < lastSent || (sequence == lastSent && !r.awaitingAck)

def cacheApplicationFrame (frame : Frame) : Call Error RelayState Unit := do
  let r ← get
  if r.awaitingAck ∨ !frame.isSealed then throw .phase
  else do
    let next ← Call.orThrow .counter (checkedSucc r.nextLocalSequence)
    set { r with nextLocalSequence := next, cachedOutbound := some frame, awaitingAck := true }

def cachedApplicationSequence (r : RelayState) : Except Error UInt8 :=
  if !r.awaitingAck ∨ r.cachedOutbound.isNone then .error .phase
  else
    match checkedPred r.nextLocalSequence with
    | some sequence => .ok sequence
    | none => .error .counter

def cachedBootstrapSequence (r : RelayState) : Except Error (Option UInt8) :=
  if r.cachedOutbound.isSome then .error .phase
  else if !r.awaitingAck then .ok none
  else
    match checkedPred r.nextLocalSequence with
    | some sequence => .ok (some sequence)
    | none => .error .counter

def acknowledgeApplicationFrame (sequence : UInt8) : Call Error RelayState Unit := do
  let r ← get
  let cached ← Call.ofExcept r.cachedApplicationSequence
  if cached ≠ sequence then throw .counter
  else set { r with cachedOutbound := none, awaitingAck := false }

/-! ### What the calls do -/

theorem acceptPeerSequence_eq_ok {r r' : RelayState} {sequence : UInt8} :
    acceptPeerSequence sequence r = .ok () r' ↔ sequence = r.nextPeerSequence ∧
      ∃ next, checkedSucc sequence = some next ∧ r' = { r with nextPeerSequence := next } := by
  rw [acceptPeerSequence, Call.run_bind (Call.run_get r)]
  split_ifs with h
  · simp [h]
  · simp only [ne_eq, not_not] at h
    subst h
    simp only [Call.bind_eq_ok, Call.orThrow_eq_ok, Call.set_eq_ok, true_and]
    aesop

theorem queueBootstrapFrame_eq_ok {r r' : RelayState} {sequence : UInt8} :
    queueBootstrapFrame r = .ok sequence r' ↔ r.awaitingAck = false ∧ r.cachedOutbound = none ∧
      sequence = r.nextLocalSequence ∧ ∃ next, checkedSucc r.nextLocalSequence = some next ∧
        r' = { r with nextLocalSequence := next, awaitingAck := true } := by
  rw [queueBootstrapFrame, Call.run_bind (Call.run_get r)]
  split_ifs with h
  · simp only [Call.throw_eq_ok, false_iff]
    aesop
  · simp only [Call.bind_eq_ok, Call.orThrow_eq_ok, Call.set_eq_ok, Call.pure_eq_ok]
    aesop

theorem acknowledgeBootstrapFrame_eq_ok {r r' : RelayState} {sequence : UInt8} :
    acknowledgeBootstrapFrame sequence r = .ok () r' ↔
      checkedPred r.nextLocalSequence = some sequence ∧ r.awaitingAck = true ∧
      r.cachedOutbound = none ∧ r' = { r with awaitingAck := false } := by
  rw [acknowledgeBootstrapFrame, Call.run_bind (Call.run_get r)]
  simp only [Call.bind_eq_ok, Call.orThrow_eq_ok]
  constructor
  · rintro ⟨expected, _, ⟨hexpected, rfl⟩, h⟩
    split_ifs at h with hc
    · simp at h
    · simp only [Call.set_eq_ok] at h
      aesop
  · rintro ⟨hexpected, hawait, hcached, rfl⟩
    exact ⟨sequence, r, ⟨hexpected, rfl⟩, by simp [hawait, hcached]⟩

theorem cacheApplicationFrame_eq_ok {r r' : RelayState} {frame : Frame} :
    cacheApplicationFrame frame r = .ok () r' ↔ r.awaitingAck = false ∧ frame.isSealed = true ∧
      ∃ next, checkedSucc r.nextLocalSequence = some next ∧
        r' = { r with
          nextLocalSequence := next, cachedOutbound := some frame, awaitingAck := true } := by
  rw [cacheApplicationFrame, Call.run_bind (Call.run_get r)]
  split_ifs with h
  · simp only [Call.throw_eq_ok, false_iff]
    aesop
  · simp only [Call.bind_eq_ok, Call.orThrow_eq_ok, Call.set_eq_ok]
    aesop

theorem cachedApplicationSequence_eq_ok {r : RelayState} {sequence : UInt8} :
    r.cachedApplicationSequence = .ok sequence ↔ r.awaitingAck = true ∧
      r.cachedOutbound.isSome = true ∧ checkedPred r.nextLocalSequence = some sequence := by
  unfold cachedApplicationSequence
  split_ifs with h
  · simp only [false_iff]
    aesop
  · have hsome : r.cachedOutbound.isSome = true := by
      rw [Option.isSome_iff_ne_none]
      simp_all
    cases checkedPred r.nextLocalSequence <;> aesop

theorem cachedBootstrapSequence_eq_ok {r : RelayState} {sequence : Option UInt8} :
    r.cachedBootstrapSequence = .ok sequence ↔ r.cachedOutbound = none ∧
      ((r.awaitingAck = false ∧ sequence = none) ∨
        (r.awaitingAck = true ∧ ∃ s, checkedPred r.nextLocalSequence = some s ∧
          sequence = some s)) := by
  unfold cachedBootstrapSequence
  split_ifs with h1 h2
  · simp only [false_iff]
    aesop
  · aesop
  · cases checkedPred r.nextLocalSequence <;> aesop

theorem acknowledgeApplicationFrame_eq_ok {r r' : RelayState} {sequence : UInt8} :
    acknowledgeApplicationFrame sequence r = .ok () r' ↔
      r.cachedApplicationSequence = .ok sequence ∧
      r' = { r with cachedOutbound := none, awaitingAck := false } := by
  rw [acknowledgeApplicationFrame, Call.run_bind (Call.run_get r)]
  simp only [Call.bind_eq_ok, Call.ofExcept_eq_ok]
  constructor
  · rintro ⟨cached, _, ⟨hcached, rfl⟩, h⟩
    split_ifs at h with hc
    · simp at h
    · simp only [Call.set_eq_ok] at h
      simp only [ne_eq, not_not] at hc
      exact ⟨hc ▸ hcached, h.symm⟩
  · rintro ⟨hcached, rfl⟩
    exact ⟨sequence, r, ⟨hcached, rfl⟩, by simp⟩

end RelayState
end CredentialV2
end CbclPairing
