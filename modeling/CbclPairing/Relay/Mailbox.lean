import CbclPairing.Runs
import CbclPairing.Wire

/-! The two-membership mailbox: its state, its commands and the effects of one
transition. -/
namespace CbclPairing
open Codec Calls

/-- One of the two fixed memberships of a mailbox. -/
abbrev Membership := Side

/-- Hash of a relay-issued membership token. -/
abbrev MembershipHash := Octets 32

def defaultTtlSeconds : ℕ := 600
def minTtlSeconds : ℕ := 60
def maxTtlSeconds : ℕ := 86400
def v2TtlSeconds : ℕ := 900
def maxFramesPerMembership : ℕ := 16
def maxFrameBodyBytes : ℕ := 69632

inductive MailboxStatus where
  | waiting
  | paired
  | terminal (reason : CloseReason)
  deriving DecidableEq, Repr

def MailboxStatus.isTerminal : MailboxStatus → Bool
  | .terminal _ => true
  | _ => false

/-- Which admission rule holds, with the commitment of a pending v2 claim. -/
inductive Admission where
  | v1
  | v2Pending (commitment : Octets 32)
  | v2Claimed
  | v2Closed
  deriving DecidableEq

structure FrameRecord where
  seq : UInt8
  digest : Octets 32
  bodyLen : ℕ
  body : Option Bytes
  deriving DecidableEq

structure MemberState where
  hash : MembershipHash
  nextSeq : UInt8
  frames : List FrameRecord
  deriving DecidableEq

structure Mailbox where
  mailboxId : Octets 32
  nameplate : Option ℕ
  expiresAt : UInt64
  status : MailboxStatus
  admission : Admission
  allocator : MemberState
  claimant : Option MemberState
  queueBytes : ℕ
  deriving DecidableEq

structure AllocationInput where
  mailboxId : Octets 32
  nameplate : Option ℕ
  allocatorHash : MembershipHash
  now : UInt64
  ttlSeconds : Option ℕ

structure V2AllocationInput where
  mailboxId : Octets 32
  allocatorHash : MembershipHash
  claimCommitment : Octets 32
  now : UInt64
  ttlSeconds : Option ℕ

inductive MailboxCommand where
  | claim (claimantHash : MembershipHash)
  | claimV2 (claimantHash : MembershipHash) (claimToken : ClaimToken)
  | openMailbox (membershipHash : MembershipHash)
  | put (sender : Membership) (seq : UInt8) (body : Bytes)
  | ack (sender : Membership) (peerSeq : UInt8)
  | close (sender : Membership)
  deriving DecidableEq

inductive MailboxEffect where
  | claimed (membership : Membership) (expiresAt : UInt64)
  | opened (membership : Membership) (expiresAt : UInt64)
  | stored (sender : Membership) (seq : UInt8) (replay : Bool)
  | deliver (recipient : Membership) (peerSeq : UInt8) (body : Bytes)
  | bodyDeleted (owner : Membership) (seq : UInt8)
  | terminal (reason : CloseReason)
  deriving DecidableEq

inductive MailboxError where
  | lifetimeOutOfRange
  | expiryOverflow
  | nameplateOutOfRange
  | notMember
  | closed (reason : CloseReason)
  | sequenceGap (expected got : UInt8)
  | frameLimit
  | bodySize
  | unknownSequence
  | membershipCollision
  | invalidSnapshot
  deriving DecidableEq

def MailboxError.wireCode : MailboxError → ℕ
  | .lifetimeOutOfRange | .nameplateOutOfRange => 400
  | .notMember => 404
  | .closed _ => 410
  | .bodySize => 413
  | .expiryOverflow | .invalidSnapshot => 503
  | .sequenceGap .. | .frameLimit | .unknownSequence | .membershipCollision => 409

/-- How an operation stops short: with one of its errors, in a panic, out of memory,
or never. -/
inductive Fault (ε : Type) where
  | error (e : ε)
  | panicked
  | aborted
  | diverged
  deriving DecidableEq

/-- `Option::expect`. -/
def expect {ε α : Type} : Option α → Except (Fault ε) α
  | some a => .ok a
  | none => .error .panicked

/-- `u64::checked_add`. -/
def checkedAdd64 (a b : ℕ) : Option ℕ := if a + b < 2 ^ 64 then some (a + b) else none

/-- `u64::checked_sub`. -/
def checkedSub64 (a b : ℕ) : Option ℕ := if b ≤ a then some (a - b) else none

/-- The updated mailbox, or none once its expiry reaps it, and the effects. -/
structure MailboxTransition where
  state : Option Mailbox
  effects : List MailboxEffect
  deriving DecidableEq

namespace Mailbox

def newMember (hash : MembershipHash) : MemberState := ⟨hash, 0, []⟩

/-- The absolute expiry of a lifetime that starts now. -/
def expiry (now : UInt64) (ttl : ℕ) : Except MailboxError UInt64 :=
  match checkedAdd64 now.toNat ttl with
  | some value => .ok (UInt64.ofNat value)
  | none => .error .expiryOverflow

def allocate (input : AllocationInput) : Except MailboxError Mailbox :=
  let ttl := input.ttlSeconds.getD defaultTtlSeconds
  if ttl < minTtlSeconds ∨ maxTtlSeconds < ttl then .error .lifetimeOutOfRange
  else if input.nameplate.any (999999999 < ·) then .error .nameplateOutOfRange
  else do
    let expiresAt ← expiry input.now ttl
    .ok
      { mailboxId := input.mailboxId, nameplate := input.nameplate, expiresAt, status := .waiting
        admission := .v1, allocator := newMember input.allocatorHash, claimant := none
        queueBytes := 0 }

def allocateV2 (input : V2AllocationInput) : Except MailboxError Mailbox :=
  if input.ttlSeconds.getD v2TtlSeconds ≠ v2TtlSeconds then .error .lifetimeOutOfRange
  else do
    let expiresAt ← expiry input.now v2TtlSeconds
    .ok
      { mailboxId := input.mailboxId, nameplate := none, expiresAt, status := .waiting
        admission := .v2Pending input.claimCommitment, allocator := newMember input.allocatorHash
        claimant := none, queueBytes := 0 }

def membershipHashes (m : Mailbox) : List MembershipHash :=
  m.allocator.hash :: (m.claimant.map MemberState.hash).toList

def member (m : Mailbox) : Membership → Option MemberState
  | .allocator => some m.allocator
  | .claimant => m.claimant

/-- Replace the state of a member the mailbox has. -/
def setMember (m : Mailbox) : Membership → MemberState → Mailbox
  | .allocator, state => { m with allocator := state }
  | .claimant, state => { m with claimant := m.claimant.map fun _ => state }

def membershipForHash (m : Mailbox) (hash : MembershipHash) : Option Membership :=
  if m.allocator.hash = hash then some .allocator
  else if m.claimant.any (·.hash == hash) then some .claimant
  else none

/-- Take every body of one member, in order, out of the accounting. -/
def deleteFrames (owner : Membership) :
    ℕ → List FrameRecord → Except (Fault MailboxError) (ℕ × List FrameRecord × List MailboxEffect)
  | queue, [] => .ok (queue, [], [])
  | queue, frame :: rest =>
    match frame.body with
    | none => do
      let (queue, rest, effects) ← deleteFrames owner queue rest
      .ok (queue, frame :: rest, effects)
    | some _ => do
      let queue ← expect (checkedSub64 queue frame.bodyLen)
      let (queue, rest, effects) ← deleteFrames owner queue rest
      .ok (queue, { frame with body := none } :: rest, .bodyDeleted owner frame.seq :: effects)

def deleteBodies (m : Mailbox) : Except (Fault MailboxError) (Mailbox × List MailboxEffect) := do
  let (queue, frames, effects) ← deleteFrames .allocator m.queueBytes m.allocator.frames
  let m := { m with allocator := { m.allocator with frames } }
  match m.claimant with
  | none => .ok ({ m with queueBytes := queue }, effects)
  | some claimant => do
    let (queue, frames, more) ← deleteFrames .claimant queue claimant.frames
    .ok ({ m with claimant := some { claimant with frames }, queueBytes := queue }, effects ++ more)

def terminate (m : Mailbox) (reason : CloseReason) :
    Except (Fault MailboxError) MailboxTransition := do
  let (m, effects) ← m.deleteBodies
  let admission := if m.admission = .v1 then .v1 else .v2Closed
  .ok ⟨some { m with status := .terminal reason, admission }, effects ++ [.terminal reason]⟩

/-- Reap a mailbox at its original expiry. -/
def reap (m : Mailbox) (now : UInt64) : Except (Fault MailboxError) MailboxTransition :=
  if now < m.expiresAt then .ok ⟨some m, []⟩
  else do
    let (expired, effects) ← m.deleteBodies
    .ok ⟨none, effects ++ if expired.status.isTerminal then [] else [.terminal .expired]⟩

/-! ### Commands -/

def claim (m : Mailbox) (claimantHash : MembershipHash) :
    Except (Fault MailboxError) MailboxTransition :=
  if m.admission ≠ .v1 then .error (.error .notMember)
  else if claimantHash = m.allocator.hash then .error (.error .membershipCollision)
  else
    match m.claimant with
    | none =>
      .ok ⟨some { m with claimant := some (newMember claimantHash), status := .paired },
        [.claimed .claimant m.expiresAt]⟩
    | some claimant =>
      if claimant.hash = claimantHash then .error (.error .membershipCollision)
      else m.terminate .crowded

def claimV2 [Primitives] (m : Mailbox) (claimantHash : MembershipHash) (claimToken : ClaimToken) :
    Except (Fault MailboxError) MailboxTransition :=
  match m.admission with
  | .v2Pending expected =>
    if expected ≠ claimCommitment m.mailboxId claimToken then .error (.error .notMember)
    else if claimantHash = m.allocator.hash ∨ m.claimant.isSome then
      .error (.error .membershipCollision)
    else
      .ok ⟨some { m with
          claimant := some (newMember claimantHash), status := .paired, admission := .v2Claimed },
        [.claimed .claimant m.expiresAt]⟩
  | _ => .error (.error .notMember)

/-- The queued bodies a member offers its peer, in order. -/
def deliveries (recipient : Membership) (frames : List FrameRecord) : List MailboxEffect :=
  frames.filterMap fun frame => frame.body.map fun body => .deliver recipient frame.seq body

def openMailbox (m : Mailbox) (membershipHash : MembershipHash) :
    Except (Fault MailboxError) MailboxTransition :=
  match m.membershipForHash membershipHash with
  | none => .error (.error .notMember)
  | some membership =>
    let frames := ((m.member membership.opposite).map MemberState.frames).getD []
    .ok ⟨some m, .opened membership m.expiresAt :: deliveries membership frames⟩

variable [Primitives]

/-- Store the next frame of one member. -/
def store (m : Mailbox) (sender : Membership) (member : MemberState) (seq : UInt8) (body : Bytes) :
    Except (Fault MailboxError) MailboxTransition := do
  let frame : FrameRecord := ⟨seq, sha256 body, body.length, some body⟩
  let nextSeq ← expect (checkedSucc member.nextSeq)
  let next := m.setMember sender { member with frames := member.frames ++ [frame], nextSeq }
  let queueBytes ← expect (checkedAdd64 m.queueBytes body.length)
  .ok ⟨some { next with queueBytes },
    .stored sender seq false ::
      if (m.member sender.opposite).isSome then [.deliver sender.opposite seq body] else []⟩

def put (m : Mailbox) (sender : Membership) (seq : UInt8) (body : Bytes) :
    Except (Fault MailboxError) MailboxTransition :=
  if body = [] ∨ maxFrameBodyBytes < body.length then .error (.error .bodySize)
  else
    match m.member sender with
    | none => .error (.error .notMember)
    | some member =>
      if seq < member.nextSeq then
        match member.frames.find? (·.seq == seq) with
        | none => .error (.error .unknownSequence)
        | some frame =>
          if frame.bodyLen = body.length ∧ frame.digest = sha256 body then
            .ok ⟨some m, [.stored sender seq true]⟩
          else m.terminate .conflict
      else if member.nextSeq < seq then .error (.error (.sequenceGap member.nextSeq seq))
      else if maxFramesPerMembership ≤ seq.toNat ∨ maxFramesPerMembership ≤ member.frames.length then
        .error (.error .frameLimit)
      else m.store sender member seq body

/-- Drop the body of the first frame with a sequence. -/
def dropBody (seq : UInt8) : List FrameRecord → List FrameRecord
  | [] => []
  | frame :: rest =>
    if frame.seq = seq then { frame with body := none } :: rest else frame :: dropBody seq rest

omit [Primitives] in
def ack (m : Mailbox) (sender : Membership) (peerSeq : UInt8) :
    Except (Fault MailboxError) MailboxTransition :=
  if (m.member sender).isNone then .error (.error .notMember)
  else
    let owner := sender.opposite
    match m.member owner with
    | none => .error (.error .unknownSequence)
    | some peer =>
      match peer.frames.find? (·.seq == peerSeq) with
      | none => .error (.error .unknownSequence)
      | some frame =>
        let next := m.setMember owner { peer with frames := dropBody peerSeq peer.frames }
        match frame.body with
        | none => .ok ⟨some next, []⟩
        | some _ => do
          let queueBytes ← expect (checkedSub64 m.queueBytes frame.bodyLen)
          .ok ⟨some { next with queueBytes }, [.bodyDeleted owner peerSeq]⟩

omit [Primitives] in
def close (m : Mailbox) (sender : Membership) : Except (Fault MailboxError) MailboxTransition :=
  if (m.member sender).isNone then .error (.error .notMember) else m.terminate .closed

def command (m : Mailbox) : MailboxCommand → Except (Fault MailboxError) MailboxTransition
  | .claim claimantHash => m.claim claimantHash
  | .claimV2 claimantHash claimToken => m.claimV2 claimantHash claimToken
  | .openMailbox membershipHash => m.openMailbox membershipHash
  | .put sender seq body => m.put sender seq body
  | .ack sender peerSeq => m.ack sender peerSeq
  | .close sender => m.close sender

/-- Apply one recognised command. -/
def transition (m : Mailbox) (now : UInt64) (c : MailboxCommand) :
    Except (Fault MailboxError) MailboxTransition :=
  if m.expiresAt ≤ now then m.reap now
  else
    match m.status with
    | .terminal reason => .error (.error (.closed reason))
    | _ => m.command c

end Mailbox
end CbclPairing
