import CbclPairing.Relay.Storage
import CbclPairing.Tables

/-! The relay service: retained mailboxes with their indexes, the connections
attached to them, and the store that every change is written through to. -/
namespace CbclPairing
open Codec Calls Tables

/-! ### The store -/

/-- Bytewise order of mailbox identifiers. -/
def idLe (a b : Octets 32) : Prop := ofBe a.val ≤ ofBe b.val

instance : DecidableRel idLe := fun a b => inferInstanceAs (Decidable (ofBe a.val ≤ ofBe b.val))

instance : IsTrans (Octets 32) idLe := ⟨fun _ _ _ h k => Nat.le_trans h k⟩

instance : Std.Total idLe := ⟨fun a b => le_total (ofBe a.val) (ofBe b.val)⟩

instance : Std.Antisymm idLe :=
  ⟨fun _ _ h k => Subtype.ext (ofBe_injective (by simp) (Nat.le_antisymm h k))⟩

/-- A store of encoded records, and which of the writes to come it refuses. A write
takes effect as a whole or not at all. -/
structure MailboxStore where
  records : Table (Octets 32) Bytes
  faults : List Bool

namespace MailboxStore

variable [Primitives]

/-- Load and fully recognise every retained mailbox, in the order of identifiers. -/
def load (s : MailboxStore) : Except StoreError (List Mailbox) :=
  (s.records.keys.sort idLe).mapM fun id =>
    match s.records.lookup id with
    | some record => Store.decode record
    | none => .error .malformed

omit [Primitives] in
def put (m : Mailbox) : Call StoreError MailboxStore Unit := fun s =>
  if s.faults.head? = some true then .error .io { s with faults := s.faults.tail }
  else
    match Store.encode m.snapshot with
    | .error e => .error e { s with faults := s.faults.tail }
    | .ok record =>
      .ok () { records := s.records.insert m.mailboxId record, faults := s.faults.tail }

omit [Primitives] in
def remove (id : Octets 32) : Call StoreError MailboxStore Unit := fun s =>
  if s.faults.head? = some true then .error .io { s with faults := s.faults.tail }
  else .ok () { records := s.records.erase id, faults := s.faults.tail }

end MailboxStore

/-! ### State -/

/-- Process-local identifier for one relay connection. -/
abbrev ConnectionId := UInt64

/-- Random values the shell supplies for one command. -/
structure RelayRandomness where
  mailboxId : Octets 32
  membershipToken : Octets 32
  nameplate : ℕ

inductive Operation where
  | bind
  | allocate
  | claim
  | openMailbox
  | put
  | ack
  | close
  | ping
  deriving DecidableEq

inductive LimitDecision where
  | allowed (remaining : ℕ)
  | cooldown (retryAt : UInt64)

/-- The shared limiter, of which the service only uses the decisions. -/
class RateLimiter (C : outParam Type) (L : Type) where
  entryCap : C → ℕ
  new : Octets 32 → C → Option L
  check : Operation → Bytes → UInt64 → Call Unit L LimitDecision
  sweepIfDue : UInt64 → Call Unit L Unit

structure CapacityCaps where
  openMailboxes : UInt64
  queueBytes : UInt64
  limiterEntries : UInt64

structure RelayConfig (C : Type) where
  operatorKey : Octets 32
  limiter : C
  capacity : CapacityCaps
  allocationEnabled : Bool

structure RoutedMessage where
  connection : ConnectionId
  message : ServerMessage
  deriving DecidableEq

inductive RelayError where
  | invalidConfiguration
  | limiter
  | storage
  deriving DecidableEq

/-- A membership of one mailbox, and the key of its route. -/
structure SessionMembership where
  mailboxId : Octets 32
  membership : Membership
  deriving DecidableEq

structure ConnectionState where
  bound : Bool := false
  membership : Option SessionMembership := none
  deriving DecidableEq

/-- Order of expiries, and of identifiers at one time. -/
def expiryLe (a b : UInt64 × Octets 32) : Prop := a.1 < b.1 ∨ a.1 = b.1 ∧ idLe a.2 b.2

instance : DecidableRel expiryLe := fun a b =>
  inferInstanceAs (Decidable (a.1 < b.1 ∨ a.1 = b.1 ∧ idLe a.2 b.2))

instance : IsTrans (UInt64 × Octets 32) expiryLe where
  trans a b c h k := by
    unfold expiryLe idLe at *
    simp only [UInt64.lt_iff_toNat_lt, ← UInt64.toNat_inj] at *
    omega

instance : Std.Total expiryLe where
  total a b := by
    unfold expiryLe idLe
    simp only [UInt64.lt_iff_toNat_lt, ← UInt64.toNat_inj]
    omega

instance : Std.Antisymm expiryLe where
  antisymm a b h k := by
    have hboth : a.1 = b.1 ∧ idLe a.2 b.2 ∧ idLe b.2 a.2 := by
      unfold expiryLe idLe at *
      simp only [UInt64.lt_iff_toNat_lt, ← UInt64.toNat_inj] at *
      omega
    exact Prod.ext hboth.1 (Std.Antisymm.antisymm _ _ hboth.2.1 hboth.2.2)

structure Relay (C L : Type) where
  config : RelayConfig C
  limiter : L
  store : MailboxStore
  mailboxes : Table (Octets 32) Mailbox
  nameplates : Table ℕ (Octets 32)
  membershipHashes : Finset MembershipHash
  expiries : Finset (UInt64 × Octets 32)
  queueBytes : ℕ
  connections : Table ConnectionId ConnectionState
  routes : Table SessionMembership ConnectionId

def route (connection : ConnectionId) (message : ServerMessage) : RoutedMessage :=
  ⟨connection, message⟩

def mailboxError : MailboxError → ServerMessage
  | .closed reason => .closed reason
  | e => .error e.wireCode

/-- Keep the first of equal messages. -/
def deduplicateRoutes (messages : List RoutedMessage) : List RoutedMessage :=
  messages.foldl (fun result message =>
    if message ∈ result then result else result ++ [message]) []

def tokenHash [Primitives] (token : Octets 32) : MembershipHash := sha256 token.val

namespace Relay

variable {C L : Type}

/-- What a connection is attached to. -/
def membershipIn (connections : Table ConnectionId ConnectionState) (connection : ConnectionId) :
    Option SessionMembership :=
  (connections.lookup connection).bind ConnectionState.membership

def membershipOf (s : Relay C L) (connection : ConnectionId) : Option SessionMembership :=
  membershipIn s.connections connection

def resolve (s : Relay C L) : Locator → Option (Octets 32)
  | .direct id => if id ∈ s.mailboxes then some id else none
  | .nameplate number => s.nameplates.lookup number

def terminalRoutes (s : Relay C L) (id : Octets 32) (reason : CloseReason) : List RoutedMessage :=
  ([.allocator, .claimant] : List Membership).filterMap fun membership =>
    (s.routes.lookup ⟨id, membership⟩).map fun connection => route connection (.closed reason)

/-! ### Updates of the indexes -/

/-- Replace what a connection is attached to. -/
def setMembership (connections : Table ConnectionId ConnectionState) (connection : ConnectionId)
    (membership : Option SessionMembership) : Table ConnectionId ConnectionState :=
  let state := (connections.lookup connection).getD {}
  connections.insert connection { state with membership }

/-- Detach a connection that is still known. -/
def detach (connections : Table ConnectionId ConnectionState) (connection : ConnectionId) :
    Table ConnectionId ConnectionState :=
  if connection ∈ connections then setMembership connections connection none else connections

/-- Remove the route of a membership, when it leads to the connection. -/
def dropRoute (routes : Table SessionMembership ConnectionId) (connection : ConnectionId) :
    Option SessionMembership → Table SessionMembership ConnectionId
  | none => routes
  | some key => if routes.lookup key = some connection then routes.erase key else routes

def attach (s : Relay C L) (connection : ConnectionId) (key : SessionMembership) : Relay C L :=
  let routes := dropRoute s.routes connection (s.membershipOf connection)
  let connections :=
    match routes.lookup key with
    | some holder => if holder ≠ connection then detach s.connections holder else s.connections
    | none => s.connections
  { s with
    connections := setMembership connections connection (some key)
    routes := routes.insert key connection }

/-- Add a freshly allocated mailbox to every index. -/
def install (s : Relay C L) (m : Mailbox) : Relay C L :=
  { s with
    mailboxes := s.mailboxes.insert m.mailboxId m
    membershipHashes := insert m.allocator.hash s.membershipHashes
    expiries := insert (m.expiresAt, m.mailboxId) s.expiries
    nameplates :=
      match m.nameplate with
      | some nameplate => s.nameplates.insert nameplate m.mailboxId
      | none => s.nameplates }

/-- Replace a retained mailbox, when the accounting allows it. -/
def replace (s : Relay C L) (id : Octets 32) (m : Mailbox) : Option (Relay C L) := do
  let previous := (s.mailboxes.lookup id).elim 0 Mailbox.queueBytes
  let rest ← checkedSub64 s.queueBytes previous
  let queueBytes ← checkedAdd64 rest m.queueBytes
  some { s with
    queueBytes
    membershipHashes := s.membershipHashes ∪ m.membershipHashes.toFinset
    mailboxes := s.mailboxes.insert id m }

/-- Remove the route of one membership, and detach the connection that held it. -/
def unroute (s : Relay C L) (key : SessionMembership) : Relay C L :=
  { s with
    connections :=
      match s.routes.lookup key with
      | some connection => detach s.connections connection
      | none => s.connections
    routes := s.routes.erase key }

/-- Take a mailbox that is no longer retained out of the indexes. -/
def removeMailboxIndexes (s : Relay C L) (id : Octets 32) (m : Mailbox) : Option (Relay C L) := do
  let queueBytes ← checkedSub64 s.queueBytes m.queueBytes
  let s := { s with
    nameplates :=
      match m.nameplate with
      | some nameplate => s.nameplates.erase nameplate
      | none => s.nameplates
    membershipHashes := s.membershipHashes \ m.membershipHashes.toFinset
    expiries := s.expiries.erase (m.expiresAt, id)
    queueBytes }
  some ((s.unroute ⟨id, .allocator⟩).unroute ⟨id, .claimant⟩)

/-! ### Writing through to the store -/

abbrev Step (C L α : Type) := Call (Fault RelayError) (Relay C L) α

/-- One store operation: a refusal is the storage error. -/
def stored (op : Call StoreError MailboxStore Unit) : Step C L Unit := fun s =>
  match op s.store with
  | .ok _ store => .ok () { s with store }
  | .error _ store => .error (.error .storage) { s with store }

def removeMailbox (id : Octets 32) : Step C L Unit := do
  stored (MailboxStore.remove id)
  let s ← get
  match s.mailboxes.lookup id with
  | none => pure ()
  | some m =>
    let s := { s with mailboxes := s.mailboxes.erase id }
    match s.removeMailboxIndexes id m with
    | some s => set s
    | none => throw .panicked

def commit (id : Octets 32) (t : MailboxTransition) : Step C L Unit := do
  match t.state with
  | some m =>
    stored (MailboxStore.put m)
    let s ← get
    match s.replace id m with
    | some s => set s
    | none => throw (.error .invalidConfiguration)
  | none =>
    let s ← get
    if id ∈ s.mailboxes then removeMailbox id else pure ()

/-! ### Commands -/

/-- A mailbox error is the reply to the connection that caused it. -/
def answered (connection : ConnectionId) (result : Except (Fault MailboxError) MailboxTransition)
    (next : MailboxTransition → Step C L (List RoutedMessage)) : Step C L (List RoutedMessage) :=
  match result with
  | .ok t => next t
  | .error (.error e) => pure [route connection (mailboxError e)]
  | .error .panicked => throw .panicked
  | .error .aborted => throw .aborted
  | .error .diverged => throw .diverged

def claimedAt (effects : List MailboxEffect) : Option UInt64 :=
  effects.findSome? fun
    | .claimed _ expiresAt => some expiresAt
    | _ => none

def terminalReason (effects : List MailboxEffect) : Option CloseReason :=
  effects.findSome? fun
    | .terminal reason => some reason
    | _ => none

def openedAs (effects : List MailboxEffect) : Option Membership :=
  effects.findSome? fun
    | .opened membership _ => some membership
    | _ => none

/-- The frames an open delivers, all to the connection that opened. -/
def delivered (connection : ConnectionId) (effects : List MailboxEffect) : List RoutedMessage :=
  effects.filterMap fun
    | .deliver _ peerSeq body => some (route connection (.frame peerSeq body))
    | _ => none

/-- The reply to an expiry or a crowded claim, with the routes that are left. -/
def closing (connection : ConnectionId) (id : Octets 32) (reason : CloseReason) :
    Step C L (List RoutedMessage) := do
  let s ← get
  pure (deduplicateRoutes (s.terminalRoutes id reason ++ [route connection (.closed reason)]))

variable [Primitives]

/-- Retain a fresh mailbox and attach its allocator. -/
def retain (connection : ConnectionId) (m : Mailbox) (reply : ServerMessage) :
    Step C L (List RoutedMessage) := do
  stored (MailboxStore.put m)
  modify fun s => (s.install m).attach connection ⟨m.mailboxId, .allocator⟩
  pure [route connection reply]

/-- The nameplate of an allocation, or the code that refuses it. -/
def chooseNameplate (s : Relay C L) (locatorMode : UInt8) (nameplate : ℕ) :
    Except ℕ (Option ℕ) :=
  if locatorMode = 0 then .ok none
  else if locatorMode = 1 then
    if nameplate ≤ 999999999 ∧ nameplate ∉ s.nameplates then .ok (some nameplate) else .error 503
  else .error 400

def allocate (connection : ConnectionId) (now : UInt64) (randomness : RelayRandomness)
    (locatorMode : UInt8) (ttlSeconds : Option ℕ) : Step C L (List RoutedMessage) := do
  let s ← get
  if !s.config.allocationEnabled then pure [route connection (.error 503)]
  else if (s.membershipOf connection).isSome then pure [route connection (.error 409)]
  else if s.config.capacity.openMailboxes.toNat ≤ s.mailboxes.size ∨
      randomness.mailboxId ∈ s.mailboxes ∨
      tokenHash randomness.membershipToken ∈ s.membershipHashes then
    pure [route connection (.error 503)]
  else
    match s.chooseNameplate locatorMode randomness.nameplate with
    | .error code => pure [route connection (.error code)]
    | .ok nameplate =>
      match Mailbox.allocate ⟨randomness.mailboxId, nameplate,
          tokenHash randomness.membershipToken, now, ttlSeconds⟩ with
      | .error e => pure [route connection (mailboxError e)]
      | .ok m => retain connection m (.allocated randomness.mailboxId randomness.membershipToken
          nameplate m.expiresAt)

def allocateV2 (connection : ConnectionId) (now : UInt64) (membershipToken mailboxId : Octets 32)
    (claimCommitment : Octets 32) (ttlSeconds : Option ℕ) : Step C L (List RoutedMessage) := do
  let s ← get
  if !s.config.allocationEnabled then pure [route connection (.error 503)]
  else if (s.membershipOf connection).isSome then pure [route connection (.error 409)]
  else if s.config.capacity.openMailboxes.toNat ≤ s.mailboxes.size ∨ mailboxId ∈ s.mailboxes ∨
      tokenHash membershipToken ∈ s.membershipHashes then
    pure [route connection (.error 503)]
  else
    match Mailbox.allocateV2 ⟨mailboxId, tokenHash membershipToken, claimCommitment, now,
        ttlSeconds⟩ with
    | .error e => pure [route connection (mailboxError e)]
    | .ok m => retain connection m (.allocatedV2 mailboxId membershipToken m.expiresAt)

omit [Primitives] in
/-- The rest of a claim, once the mailbox has answered. -/
def settleClaim (connection : ConnectionId) (id membershipToken : Octets 32)
    (t : MailboxTransition) : Step C L (List RoutedMessage) := do
  commit id t
  match claimedAt t.effects with
  | some expiresAt => do
    modify fun s => s.attach connection ⟨id, .claimant⟩
    pure [route connection (.claimed id membershipToken expiresAt)]
  | none =>
    match terminalReason t.effects with
    | some reason => closing connection id reason
    | none => pure [route connection (.error 503)]

def claim (connection : ConnectionId) (now : UInt64) (membershipToken : Octets 32)
    (locator : Locator) : Step C L (List RoutedMessage) := do
  let s ← get
  if (s.membershipOf connection).isSome then pure [route connection (.error 409)]
  else
    match s.resolve locator with
    | none => pure [route connection (.error 404)]
    | some id =>
      if tokenHash membershipToken ∈ s.membershipHashes then pure [route connection (.error 409)]
      else
        match s.mailboxes.lookup id with
        | none => pure [route connection (.error 404)]
        | some m =>
          answered connection (m.transition now (.claim (tokenHash membershipToken)))
            (settleClaim connection id membershipToken)

omit [Primitives] in
/-- The rest of a protected claim, which has no reply of its own to an expiry. -/
def settleClaimV2 (connection : ConnectionId) (id membershipToken : Octets 32)
    (t : MailboxTransition) : Step C L (List RoutedMessage) := do
  commit id t
  match claimedAt t.effects with
  | none => pure [route connection (.error 503)]
  | some expiresAt => do
    modify fun s => s.attach connection ⟨id, .claimant⟩
    pure [route connection (.claimedV2 id membershipToken expiresAt)]

def claimV2 (connection : ConnectionId) (now : UInt64) (membershipToken mailboxId : Octets 32)
    (claimToken : ClaimToken) : Step C L (List RoutedMessage) := do
  let s ← get
  if (s.membershipOf connection).isSome then pure [route connection (.error 409)]
  else if tokenHash membershipToken ∈ s.membershipHashes then
    pure [route connection (.error 409)]
  else
    match s.mailboxes.lookup mailboxId with
    | none => pure [route connection (.error 404)]
    | some m =>
      answered connection (m.transition now (.claimV2 (tokenHash membershipToken) claimToken))
        (settleClaimV2 connection mailboxId membershipToken)

omit [Primitives] in
/-- The rest of an open. -/
def settleOpen (connection : ConnectionId) (id : Octets 32) (t : MailboxTransition) :
    Step C L (List RoutedMessage) := do
  commit id t
  match openedAs t.effects with
  | some membership => do
    modify fun s => s.attach connection ⟨id, membership⟩
    pure (delivered connection t.effects)
  | none =>
    match terminalReason t.effects with
    | some reason => closing connection id reason
    | none => pure [route connection (.error 503)]

def openMailbox (connection : ConnectionId) (now : UInt64)
    (mailboxId membershipToken : Octets 32) : Step C L (List RoutedMessage) := do
  let s ← get
  match s.mailboxes.lookup mailboxId with
  | none => pure [route connection (.error 404)]
  | some m =>
    answered connection (m.transition now (.openMailbox (tokenHash membershipToken)))
      (settleOpen connection mailboxId)

inductive MailboxCommandKind where
  | put (seq : UInt8) (body : Bytes)
  | ack (peerSeq : UInt8)
  | close

def MailboxCommandKind.by (sender : Membership) : MailboxCommandKind → MailboxCommand
  | .put seq body => .put sender seq body
  | .ack peerSeq => .ack sender peerSeq
  | .close => .close sender

/-- The octets of the body a command carries. -/
def MailboxCommandKind.bodyBytes : MailboxCommandKind → ℕ
  | .put _ body => body.length
  | _ => 0

omit [Primitives] in
/-- `saturating_sub` and `saturating_add` of the accounting. -/
def projectedQueueBytes (s : Relay C L) (id : Octets 32) (t : MailboxTransition) : ℕ :=
  let previous := (s.mailboxes.lookup id).elim 0 Mailbox.queueBytes
  let replacement := t.state.elim 0 Mailbox.queueBytes
  min (s.queueBytes - previous + replacement) (2 ^ 64 - 1)

omit [Primitives] in
def isStored (seq : UInt8) : MailboxEffect → Bool
  | .stored _ storedSeq _ => storedSeq == seq
  | _ => false

omit [Primitives] in
/-- A put is acknowledged when it is stored; nothing confirms an ack or a close. -/
def confirmation (connection : ConnectionId) (effects : List MailboxEffect) :
    MailboxCommandKind → List RoutedMessage
  | .put seq _ => if effects.any (isStored seq) then [route connection (.acknowledged seq)] else []
  | _ => []

omit [Primitives] in
/-- What one effect of a member's command sends to whom. -/
def dispatch (s : Relay C L) (id : Octets 32) : MailboxEffect → List RoutedMessage
  | .deliver recipient peerSeq body =>
    ((s.routes.lookup ⟨id, recipient⟩).map fun connection =>
      route connection (.frame peerSeq body)).toList
  | .terminal reason => s.terminalRoutes id reason
  | _ => []

omit [Primitives] in
/-- The messages of a member's command, with the routes before it is committed. -/
def memberMessages (s : Relay C L) (connection : ConnectionId) (kind : MailboxCommandKind)
    (id : Octets 32) (effects : List MailboxEffect) : List RoutedMessage :=
  deduplicateRoutes (confirmation connection effects kind ++ effects.flatMap (s.dispatch id))

omit [Primitives] in
/-- The rest of a member's command. -/
def settleMember (connection : ConnectionId) (kind : MailboxCommandKind) (id : Octets 32)
    (t : MailboxTransition) : Step C L (List RoutedMessage) := do
  let s ← get
  if s.config.capacity.queueBytes.toNat < s.projectedQueueBytes id t then
    pure [route connection (.error 503)]
  else do
    commit id t
    pure (s.memberMessages connection kind id t.effects)

/-- A command of an attached connection. Its body is cloned, so it has to fit the
address space beside the bodies already queued. -/
def memberCommand (connection : ConnectionId) (now : UInt64) (kind : MailboxCommandKind) :
    Step C L (List RoutedMessage) := do
  let s ← get
  match s.membershipOf connection with
  | none => pure [route connection (.error 404)]
  | some session =>
    match s.mailboxes.lookup session.mailboxId with
    | none => pure [route connection (.error 404)]
    | some m =>
      if 2 ^ 64 ≤ s.queueBytes + kind.bodyBytes then throw .aborted
      else
        answered connection (m.transition now (kind.by session.membership))
          (settleMember connection kind session.mailboxId)

/-! ### The public calls -/

omit [Primitives] in
def operation : ClientMessage → Operation
  | .bind => .bind
  | .allocate .. | .allocateV2 .. => .allocate
  | .claim .. | .claimV2 .. => .claim
  | .openMailbox .. => .openMailbox
  | .put .. => .put
  | .ack .. => .ack
  | .close => .close
  | .ping => .ping

def command (connection : ConnectionId) (now : UInt64) (randomness : RelayRandomness) :
    ClientMessage → Step C L (List RoutedMessage)
  | .bind => do
    modify fun s =>
      let state := (s.connections.lookup connection).getD {}
      { s with connections := s.connections.insert connection { state with bound := true } }
    pure [route connection .welcome]
  | .allocate locatorMode ttlSeconds =>
    allocate connection now randomness locatorMode ttlSeconds
  | .claim locator => claim connection now randomness.membershipToken locator
  | .allocateV2 mailboxId commitment ttlSeconds =>
    allocateV2 connection now randomness.membershipToken mailboxId commitment ttlSeconds
  | .claimV2 mailboxId token => claimV2 connection now randomness.membershipToken mailboxId token
  | .openMailbox mailboxId membershipToken =>
    openMailbox connection now mailboxId membershipToken
  | .put seq body => memberCommand connection now (.put seq body)
  | .ack peerSeq => memberCommand connection now (.ack peerSeq)
  | .close => memberCommand connection now .close
  | .ping => pure [route connection .pong]

variable [RateLimiter C L]

/-- Apply one fully recognised client command. -/
def handle (connection : ConnectionId) (peerAddress : Bytes) (now : UInt64)
    (randomness : RelayRandomness) (message : ClientMessage) :
    Step C L (List RoutedMessage) := fun s =>
  match RateLimiter.check (operation message) peerAddress now s.limiter with
  | .error _ limiter => .error (.error .limiter) { s with limiter }
  | .ok (.cooldown _) limiter => .ok [route connection (.error 429)] { s with limiter }
  | .ok (.allowed _) limiter =>
    let bound := (s.connections.lookup connection).any ConnectionState.bound
    if message ≠ .bind ∧ !bound then .ok [route connection (.error 400)] { s with limiter }
    else command connection now randomness message { s with limiter }

omit [Primitives] [RateLimiter C L] in
/-- Remove one transport connection without closing its mailbox. -/
def disconnect (connection : ConnectionId) : Step C L (List RoutedMessage) := fun s =>
  match s.connections.lookup connection with
  | none => .ok [] s
  | some state =>
    .ok [] { s with
      connections := s.connections.erase connection
      routes := dropRoute s.routes connection state.membership }

omit [Primitives] [RateLimiter C L] in
/-- The loop of a sweep, for at most so many turns. -/
def sweepLoop (now : UInt64) : ℕ → Step C L (List RoutedMessage)
  | 0 => throw .diverged
  | turns + 1 => do
    let s ← get
    match first expiryLe s.expiries with
    | none => pure []
    | some (expiresAt, id) =>
      if now < expiresAt then pure []
      else do
        removeMailbox id
        let rest ← sweepLoop now turns
        pure (s.terminalRoutes id .expired ++ rest)

omit [Primitives] in
/-- Reap expired mailboxes. -/
def sweep (now : UInt64) : Step C L (List RoutedMessage) := fun s =>
  match RateLimiter.sweepIfDue now s.limiter with
  | .error _ limiter => .error (.error .limiter) { s with limiter }
  | .ok _ limiter => sweepLoop now (s.expiries.card + 1) { s with limiter }

omit [Primitives] [RateLimiter C L] in
def disableAllocation : Step C L (List RoutedMessage) := do
  modify fun s => { s with config := { s.config with allocationEnabled := false } }
  pure []

omit [RateLimiter C L] in
/-- Close the mailboxes of a list that are still live. -/
def closeEach (now : UInt64) : List (Octets 32) → Step C L (List RoutedMessage)
  | [] => pure []
  | id :: ids => do
    let s ← get
    match s.mailboxes.lookup id with
    | none => closeEach now ids
    | some m =>
      if m.status.isTerminal then closeEach now ids
      else
        match m.transition now (.close .allocator) with
        | .ok t => do
          commit id t
          let rest ← closeEach now ids
          pure (s.terminalRoutes id .closed ++ rest)
        | .error (.error _) => throw (.error .invalidConfiguration)
        | .error .panicked => throw .panicked
        | .error .aborted => throw .aborted
        | .error .diverged => throw .diverged

omit [RateLimiter C L] in
/-- Close every live mailbox as an operator rollback action. -/
def emergencyClose (now : UInt64) : Step C L (List RoutedMessage) := do
  let _ ← disableAllocation
  let s ← get
  let messages ← closeEach now (s.mailboxes.keys.sort idLe)
  pure (deduplicateRoutes messages)

/-! ### Construction -/

omit [Primitives] [RateLimiter C L] in
/-- Insert hashes one by one, unless one is there already. -/
def insertHashes (hashes : Finset MembershipHash) :
    List MembershipHash → Option (Finset MembershipHash)
  | [] => some hashes
  | hash :: rest => if hash ∈ hashes then none else insertHashes (insert hash hashes) rest

omit [Primitives] [RateLimiter C L] in
/-- Add one loaded record to the indexes. -/
def register (s : Relay C L) (m : Mailbox) : Except RelayError (Relay C L) :=
  if m.nameplate.any (· ∈ s.nameplates) then .error .storage
  else
    match insertHashes s.membershipHashes m.membershipHashes with
    | none => .error .storage
    | some membershipHashes =>
      match checkedAdd64 s.queueBytes m.queueBytes with
      | none => .error .invalidConfiguration
      | some queueBytes =>
        if m.mailboxId ∈ s.mailboxes then .error .storage
        else .ok { s with
          nameplates :=
            match m.nameplate with
            | some nameplate => s.nameplates.insert nameplate m.mailboxId
            | none => s.nameplates
          membershipHashes
          queueBytes
          expiries := insert (m.expiresAt, m.mailboxId) s.expiries
          mailboxes := s.mailboxes.insert m.mailboxId m }

/-- Construct a service over a persistent mailbox store. -/
def withStore (config : RelayConfig C) (store : MailboxStore) :
    Except RelayError (Relay C L) :=
  if config.capacity.openMailboxes = 0 ∨ config.capacity.queueBytes = 0 ∨
      config.capacity.limiterEntries = 0 ∨
      config.capacity.limiterEntries.toNat ≠ RateLimiter.entryCap L config.limiter then
    .error .invalidConfiguration
  else
    match (RateLimiter.new config.operatorKey config.limiter : Option L) with
    | none => .error .limiter
    | some limiter =>
      match store.load with
      | .error _ => .error .storage
      | .ok loaded => do
        let s ← loaded.foldlM register
          { config, limiter, store, mailboxes := ∅, nameplates := ∅, membershipHashes := ∅
            expiries := ∅, queueBytes := 0, connections := ∅, routes := ∅ }
        if config.capacity.openMailboxes.toNat < s.mailboxes.size ∨
            config.capacity.queueBytes.toNat < s.queueBytes then .error .invalidConfiguration
        else .ok s

end Relay
end CbclPairing
