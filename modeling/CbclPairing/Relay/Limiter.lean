import CbclPairing.Relay.Service

/-! The shared limiter: a sliding window, a cooldown and a place in the order of use
for every pair of an operation and a peer key. -/
namespace CbclPairing
open Codec Calls Tables

/-- The cooldown after an exceeded operation budget. -/
def cooldownSeconds : ℕ := 300

namespace Operation

def all : List Operation := [.bind, .allocate, .claim, .openMailbox, .put, .ack, .close, .ping]

def index : Operation → ℕ
  | .bind => 0
  | .allocate => 1
  | .claim => 2
  | .openMailbox => 3
  | .put => 4
  | .ack => 5
  | .close => 6
  | .ping => 7

theorem index_injective : Function.Injective index := by
  intro a b h
  cases a <;> cases b <;> first | rfl | cases h

theorem mem_all (operation : Operation) : operation ∈ all := by
  cases operation <;> decide

end Operation

/-- Operator-keyed HMAC of one canonical peer address. -/
abbrev PeerKey := Octets 32

/-- What the limiter counts attempts by. -/
abbrev Dimension := Operation × PeerKey

structure OperationPolicy where
  limit : UInt32
  windowSeconds : UInt64
  deriving DecidableEq

/-- One policy for each operation, the cap of entries and the interval of sweeps. -/
structure LimiterConfig where
  policies : Operation → OperationPolicy
  entryCap : ℕ
  sweepIntervalSeconds : UInt64

namespace LimiterConfig

def new (defaultPolicy : OperationPolicy) (entryCap : ℕ) (sweepIntervalSeconds : UInt64) :
    LimiterConfig :=
  ⟨fun _ => defaultPolicy, entryCap, sweepIntervalSeconds⟩

def withPolicy (config : LimiterConfig) (operation : Operation) (policy : OperationPolicy) :
    LimiterConfig :=
  { config with policies := Function.update config.policies operation policy }

end LimiterConfig

inductive LimiterError where
  | invalidConfiguration
  | timeOverflow
  | emptyPeerAddress
  deriving DecidableEq

deriving instance DecidableEq for LimitDecision

/-! ### Peer keys -/

inductive IpAddr where
  | v4 (octets : Octets 4)
  | v6 (octets : Octets 16)

/-- Library functions of the limiter: a keyed hash, and the parser of textual
addresses, which fails on octets that are not UTF-8. -/
class PeerAddresses where
  hmacSha256 : Bytes → Bytes → Octets 32
  parseIpAddr : Bytes → Option IpAddr

export PeerAddresses (hmacSha256 parseIpAddr)

/-- `Ipv6Addr::to_ipv4_mapped`. -/
def toIpv4Mapped (octets : Octets 16) : Option (Octets 4) :=
  if octets.val.take 12 = List.replicate 10 0 ++ [255, 255] then
    Octets.ofList? 4 (octets.val.drop 12)
  else none

/-- A family tag and the prefix of an address that one peer is counted under. -/
def canonicalPeer [PeerAddresses] (address : Bytes) : Bytes :=
  match parseIpAddr address with
  | some (.v4 octets) => 4 :: octets.val
  | some (.v6 octets) =>
    match toIpv4Mapped octets with
    | some mapped => 4 :: mapped.val
    | none => 6 :: octets.val.take 8
  | none => 0 :: address

/-! ### State -/

structure Entry where
  attempts : List UInt64
  cooldownUntil : Option UInt64
  recency : UInt64
  deriving DecidableEq

/-- Order of operations, and of keys under one operation. -/
def dimensionLe (a b : Dimension) : Prop := a.1.index < b.1.index ∨ a.1 = b.1 ∧ idLe a.2 b.2

instance : DecidableRel dimensionLe := fun a b =>
  inferInstanceAs (Decidable (a.1.index < b.1.index ∨ a.1 = b.1 ∧ idLe a.2 b.2))

/-- Order of last use, and of dimensions used at one time. -/
def recencyLe (a b : UInt64 × Dimension) : Prop := a.1 < b.1 ∨ a.1 = b.1 ∧ dimensionLe a.2 b.2

instance : DecidableRel recencyLe := fun a b =>
  inferInstanceAs (Decidable (a.1 < b.1 ∨ a.1 = b.1 ∧ dimensionLe a.2 b.2))

section Order

theorem dimensionLe_iff {a b : Dimension} : dimensionLe a b ↔
    a.1.index < b.1.index ∨ a.1.index = b.1.index ∧ ofBe a.2.val ≤ ofBe b.2.val := by
  unfold dimensionLe idLe
  rw [Operation.index_injective.eq_iff]

instance : IsTrans Dimension dimensionLe where
  trans a b c h k := by
    simp only [dimensionLe_iff] at *
    omega

instance : Std.Total dimensionLe where
  total a b := by
    simp only [dimensionLe_iff]
    omega

instance : Std.Antisymm dimensionLe where
  antisymm a b h k := by
    have hboth : a.1.index = b.1.index ∧ ofBe a.2.val = ofBe b.2.val := by
      simp only [dimensionLe_iff] at *
      omega
    exact Prod.ext (Operation.index_injective hboth.1)
      (Subtype.ext (ofBe_injective (by simp) hboth.2))

instance : IsTrans (UInt64 × Dimension) recencyLe where
  trans a b c h k := by
    obtain h | ⟨hab, h⟩ := h
    · obtain k | ⟨hbc, k⟩ := k
      · exact .inl (UInt64.lt_trans h k)
      · exact .inl (hbc ▸ h)
    · obtain k | ⟨hbc, k⟩ := k
      · exact .inl (hab ▸ k)
      · exact .inr ⟨hab.trans hbc, IsTrans.trans _ _ _ h k⟩

instance : Std.Total recencyLe where
  total a b := by
    obtain h | h | h := Nat.lt_trichotomy a.1.toNat b.1.toNat
    · exact .inl (.inl (UInt64.lt_iff_toNat_lt.mpr h))
    · have heq : a.1 = b.1 := UInt64.toNat_inj.mp h
      exact (Std.Total.total a.2 b.2).imp (fun k => .inr ⟨heq, k⟩) fun k => .inr ⟨heq.symm, k⟩
    · exact .inr (.inl (UInt64.lt_iff_toNat_lt.mpr h))

instance : Std.Antisymm recencyLe where
  antisymm a b h k := by
    obtain h | ⟨hab, h⟩ := h
    · obtain k | ⟨hba, -⟩ := k
      · exact absurd k (UInt64.lt_asymm h)
      · exact absurd h (hba ▸ UInt64.lt_irrefl _)
    · obtain k | ⟨-, k⟩ := k
      · exact absurd k (hab ▸ UInt64.lt_irrefl _)
      · exact Prod.ext hab (Std.Antisymm.antisymm _ _ h k)

end Order

/-- One shared limiter across every mailbox operation. -/
structure Limiter where
  operatorKey : Octets 32
  config : LimiterConfig
  entries : Table Dimension Entry
  recency : Finset (UInt64 × Dimension)
  nextRecency : UInt64
  lastNow : Option UInt64
  lastSweep : Option UInt64
  clockReversals : UInt64
  capacityEvictions : UInt64

/-- Drop the attempts that left the window. -/
def pruneAttempts (windowSeconds now : UInt64) (attempts : List UInt64) : List UInt64 :=
  attempts.dropWhile fun timestamp => windowSeconds.toNat ≤ now.toNat - timestamp.toNat

namespace Entry

/-- One attempt on an entry without a running cooldown. -/
def attempt (policy : OperationPolicy) (now : UInt64) (e : Entry) :
    Except LimiterError LimitDecision × Entry :=
  let e := { e with attempts := pruneAttempts policy.windowSeconds now e.attempts }
  if policy.limit.toNat ≤ e.attempts.length then
    match checkedAdd64 now.toNat cooldownSeconds with
    | none => (.error .timeOverflow, e)
    | some retryAt =>
      (.ok (.cooldown (UInt64.ofNat retryAt)), { e with cooldownUntil := some (UInt64.ofNat retryAt) })
  else
    let attempts := e.attempts ++ [now]
    (.ok (.allowed (policy.limit.toNat - attempts.length)), { e with attempts })

/-- One attempt on an entry. -/
def check (policy : OperationPolicy) (now : UInt64) (e : Entry) :
    Except LimiterError LimitDecision × Entry :=
  match e.cooldownUntil with
  | some retryAt =>
    if now < retryAt then (.ok (.cooldown retryAt), e)
    else attempt policy now { e with cooldownUntil := none, attempts := [] }
  | none => attempt policy now e

/-- What a sweep leaves of an entry. -/
def swept (windowSeconds now : UInt64) (e : Entry) : Option Entry :=
  match e.cooldownUntil with
  | some retryAt => if retryAt ≤ now then none else some e
  | none =>
    let attempts := pruneAttempts windowSeconds now e.attempts
    if attempts = [] then none else some { e with attempts }

end Entry

namespace Limiter

/-- Create a limiter using a private operator key. -/
def new (operatorKey : Octets 32) (config : LimiterConfig) : Except LimiterError Limiter :=
  if config.entryCap = 0 ∨ config.sweepIntervalSeconds = 0 ∨ Operation.all.any fun operation =>
      (config.policies operation).limit = 0 ∨ (config.policies operation).windowSeconds = 0 then
    .error .invalidConfiguration
  else
    .ok { operatorKey, config, entries := ∅, recency := ∅, nextRecency := 0, lastNow := none
          lastSweep := none, clockReversals := 0, capacityEvictions := 0 }

/-- The clock after an observation: it never runs backwards. -/
def effective (s : Limiter) (now : UInt64) : UInt64 := s.lastNow.elim now fun last => max last now

def observeTime (now : UInt64) (s : Limiter) : Limiter :=
  { s with
    lastNow := some (s.effective now)
    clockReversals :=
      if s.effective now ≠ now then saturatingSucc s.clockReversals else s.clockReversals }

def sweepDue (s : Limiter) (now : UInt64) : Bool :=
  s.lastSweep.all fun last => s.config.sweepIntervalSeconds.toNat ≤ now.toNat - last.toNat

/-- Sweep one dimension, counting the entries removed. -/
def sweepEntry (now : UInt64) (s : ℕ × Limiter) (dimension : Dimension) : ℕ × Limiter :=
  match s.2.entries.lookup dimension with
  | none => s
  | some entry =>
    match entry.swept (s.2.config.policies dimension.1).windowSeconds now with
    | none =>
      (s.1 + 1, { s.2 with
        entries := s.2.entries.erase dimension
        recency := s.2.recency.erase (entry.recency, dimension) })
    | some entry => (s.1, { s.2 with entries := s.2.entries.insert dimension entry })

def sweepInner (now : UInt64) (s : Limiter) : ℕ × Limiter :=
  (s.entries.keys.sort dimensionLe).foldl (sweepEntry now) (0, s)

/-- Sweep at a time that was already observed. -/
def sweptAt (now : UInt64) (s : Limiter) : Limiter :=
  { (s.sweepInner now).2 with lastSweep := some now }

/-- The least recently used dimension. -/
def oldest (s : Limiter) : Option (UInt64 × Dimension) := first recencyLe s.recency

def evictLru (s : Limiter) : Limiter :=
  match s.oldest with
  | none => s
  | some victim =>
    { s with
      recency := s.recency.erase victim
      entries := s.entries.erase victim.2
      capacityEvictions := saturatingSucc s.capacityEvictions }

def takeRecency : Call LimiterError Limiter UInt64 := fun s =>
  match checkedSucc64 s.nextRecency with
  | none => .error .timeOverflow s
  | some next => .ok s.nextRecency { s with nextRecency := next }

/-- Move a dimension to the end of the order of use. -/
def touch (dimension : Dimension) (entry : Entry) : Call LimiterError Limiter Entry := do
  modify fun s => { s with recency := s.recency.erase (entry.recency, dimension) }
  let recency ← takeRecency
  let entry := { entry with recency }
  modify fun s => { s with
    entries := s.entries.insert dimension entry
    recency := insert (recency, dimension) s.recency }
  pure entry

/-- Decide one attempt on an entry, and keep what it leaves of it. -/
def decideEntry (dimension : Dimension) (now : UInt64) (entry : Entry) :
    Call LimiterError Limiter LimitDecision := fun s =>
  let decided := entry.check (s.config.policies dimension.1) now
  let s := { s with entries := s.entries.insert dimension decided.2 }
  match decided.1 with
  | .ok decision => .ok decision s
  | .error e => .error e s

/-- Make an entry for the first attempt of a dimension. -/
def enter (dimension : Dimension) (now : UInt64) : Call LimiterError Limiter LimitDecision := do
  modify fun s => if s.config.entryCap ≤ Table.size s.entries then s.evictLru else s
  let recency ← takeRecency
  modify fun s => { s with
    entries := s.entries.insert dimension { attempts := [now], cooldownUntil := none, recency }
    recency := insert (recency, dimension) s.recency }
  let s ← get
  pure (.allowed ((s.config.policies dimension.1).limit.toNat - 1))

/-- Check and record one attempt at a time that was already observed. -/
def checkEntry (dimension : Dimension) (now : UInt64) : Call LimiterError Limiter LimitDecision := do
  let s ← get
  match s.entries.lookup dimension with
  | some entry => do
    let entry ← touch dimension entry
    decideEntry dimension now entry
  | none => enter dimension now

/-- Periodically remove inactive dimensions. -/
def sweep (now : UInt64) : Call LimiterError Limiter ℕ := fun s =>
  let now' := s.effective now
  let s := s.observeTime now
  .ok (s.sweepInner now').1 (s.sweptAt now')

def sweepIfDue (now : UInt64) : Call LimiterError Limiter ℕ := fun s =>
  let now' := s.effective now
  let s := s.observeTime now
  if s.sweepDue now' then .ok (s.sweepInner now').1 (s.sweptAt now') else .ok 0 s

variable [PeerAddresses]

def peerKey (s : Limiter) (address : Bytes) : PeerKey :=
  hmacSha256 s.operatorKey.val (ascii "cbcl-pairing-peer/v1" ++ canonicalPeer address)

omit [PeerAddresses] in
/-- The limiter that a check finds: the clock has moved, and a due sweep is done. -/
def readied (s : Limiter) (now : UInt64) : Limiter :=
  let now' := s.effective now
  let s := s.observeTime now
  if s.sweepDue now' then s.sweptAt now' else s

/-- Check and record one operation of a peer address. -/
def check (operation : Operation) (address : Bytes) (now : UInt64) :
    Call LimiterError Limiter LimitDecision := fun s =>
  if address = [] then .error .emptyPeerAddress s
  else checkEntry (operation, s.peerKey address) (s.effective now) (s.readied now)

end Limiter

/-- The limiter as the relay service uses it: no decision on an error. -/
instance [PeerAddresses] : RateLimiter LimiterConfig Limiter where
  entryCap config := config.entryCap
  new operatorKey config := (Limiter.new operatorKey config).toOption
  check operation address now s :=
    match Limiter.check operation address now s with
    | .ok decision s => .ok decision s
    | .error _ s => .error () s
  sweepIfDue now s :=
    match Limiter.sweepIfDue now s with
    | .ok _ s => .ok () s
    | .error _ s => .error () s

end CbclPairing
