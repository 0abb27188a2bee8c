import CbclPairing.CredentialV2.Checkpoint

/-! Crash-recoverable allocator state from the carrier allocation through
Finished. -/
namespace CbclPairing
namespace CredentialV2
open Codec Codec.Cbor Calls

/-- How the invitation is handed over. -/
inductive AllocatorMode where
  | full
  | manual
  deriving DecidableEq, Repr

inductive BootstrapPhase where
  | allocated
  | claimed
  | shareSent
  | finishedSent
  deriving DecidableEq, Repr

variable [Primitives]

structure Bootstrap where
  carrier : Carrier
  mode : AllocatorMode
  presence : Presence
  profileDigest : Octets 32
  relay : RelayState
  phase : BootstrapPhase
  freshScalar : Option (Octets 32)
  peerCpace : Option Frame
  peerFinished : Option Frame
  pending : Option PendingChannel
  cachedOutbound : Option Frame
  checkpointGeneration : UInt64
  checkpointNonce : Option (Octets 12)
  deriving DecidableEq

namespace Bootstrap

/-- A manual invitation needs a secret words can name and a pinned key. -/
def manualAdmissible (mode : AllocatorMode) (secret : Octets 16) (carrier : Carrier) : Bool :=
  mode != .manual || (manualSecret secret && carrier.expectedAllocatorKey.isSome)

def new (carrier : Carrier) (presence : Presence) (profileDigest : Octets 32) (relay : RelayState)
    (mode : AllocatorMode) : Except Error Bootstrap :=
  if mode = .manual ∧ !manualSecret presence.cpaceSecret then .error .schema
  else if mode = .manual ∧ carrier.expectedAllocatorKey.isNone then .error .profile
  else .ok
    { carrier, mode, presence, profileDigest, relay, phase := .allocated, freshScalar := none
      peerCpace := none, peerFinished := none, pending := none, cachedOutbound := none
      checkpointGeneration := 0, checkpointNonce := none }

def onRelay {α : Type} (m : Call Error RelayState α) : Call Error Bootstrap α :=
  Call.zoom relay (fun relay b => { b with relay }) m

/-- Relay admission erases the claim token for good. -/
def claimantAdmitted : Call Error Bootstrap Unit := do
  let b ← get
  if b.phase ≠ .allocated then throw .phase
  else do
    let _ ← Call.zoom presence (fun presence b => { b with presence }) Presence.takeClaimToken
    modify fun b => { b with phase := .claimed }

/-- The allocator's CPace state and share under one scalar. -/
def share (b : Bootstrap) (scalar : Octets 32) : Except Error (Cpace.CpaceState × Frame) := do
  let (state, message) ← (Context.derive b.carrier b.profileDigest).startCpace .allocator b.presence
    scalar
  let frame ← Frame.ofCpace message
  pure (state, frame)

def startCpace (freshScalar : Octets 32) : Call Error Bootstrap Frame := do
  let b ← get
  if b.phase ≠ .claimed then throw .phase
  else do
    let (_, frame) ← Call.ofExcept (b.share freshScalar)
    set { b with
      freshScalar := some freshScalar, cachedOutbound := some frame, phase := .shareSent }
    pure frame

def retainPeerCpace (peerFrame : Frame) : Call Error Bootstrap Unit := do
  let b ← get
  if b.phase ≠ .shareSent then throw .phase
  else do
    let message ← Call.orThrow .schema peerFrame.cpaceMessage
    if message.side ≠ .claimant then throw .direction
    else if b.peerCpace.any (· != peerFrame) then throw .profile
    else set { b with peerCpace := some peerFrame }

/-- The key schedule of both shares. -/
def schedule (b : Bootstrap) (state : Cpace.CpaceState) (localFrame peerFrame : Frame)
    (peerMessage : CpaceMessage) : Except Error PendingChannel := do
  let isk ← (Cpace.finish state peerMessage).mapError fun _ => .cpace
  let localBytes ← encodeFrame localFrame
  let peerBytes ← encodeFrame peerFrame
  pure (PendingChannel.new .allocator isk (Context.derive b.carrier b.profileDigest).publicContext
    localBytes peerBytes)

def prepareFinished : Call Error Bootstrap Frame := do
  let b ← get
  if b.phase ≠ .shareSent then throw .phase
  else do
    let peerFrame ← Call.orThrow .phase b.peerCpace
    let peerMessage ← Call.orThrow .schema peerFrame.cpaceMessage
    let scalar ← Call.orThrow .phase b.freshScalar
    let (state, localFrame) ← Call.ofExcept (b.share scalar)
    if b.cachedOutbound ≠ some localFrame then throw .profile
    else do
      let pending ← Call.ofExcept (b.schedule state localFrame peerFrame peerMessage)
      set { b with
        pending := some pending, cachedOutbound := some pending.localFinishedFrame
        phase := .finishedSent }
      pure pending.localFinishedFrame

def retainPeerFinished (peerFrame : Frame) : Call Error Bootstrap Unit := do
  let b ← get
  if b.phase ≠ .finishedSent then throw .phase
  else do
    let (side, _) ← Call.orThrow .finished peerFrame.finishedValue
    if side ≠ .claimant then throw .direction
    else if b.peerFinished.any (· != peerFrame) then throw .profile
    else set { b with peerFinished := some peerFrame }

/-- Confirm the peer's Finished value; only the channel and the relay projection
survive it. -/
def confirm (b : Bootstrap) (peerFinished : Frame) : Except Error (SecureChannel × RelayState) :=
  if b.phase ≠ .finishedSent then .error .phase
  else
    match b.pending with
    | none => .error .phase
    | some pending => do
      let channel ← pending.confirm peerFinished
      .ok (channel, b.relay)

/-! ### Checkpoints -/

def cpaceFrom (side : Side) (frame : Frame) : Bool :=
  frame.cpaceMessage.any fun message => message.side == side

def finishedFrom (side : Side) (frame : Frame) : Bool :=
  frame.finishedValue.any fun value => value.1 == side

def projectionIsConsistent (b : Bootstrap) : Bool :=
  let claim := b.presence.claimToken
  manualAdmissible b.mode b.presence.cpaceSecret b.carrier &&
  match b.phase with
  | .allocated =>
    claim.isSome && b.freshScalar.isNone && b.peerCpace.isNone && b.peerFinished.isNone &&
      b.pending.isNone && b.cachedOutbound.isNone
  | .claimed =>
    claim.isNone && b.freshScalar.isNone && b.peerCpace.isNone && b.peerFinished.isNone &&
      b.pending.isNone && b.cachedOutbound.isNone
  | .shareSent =>
    claim.isNone && b.freshScalar.isSome && b.peerCpace.all (cpaceFrom .claimant) &&
      b.peerFinished.isNone && b.pending.isNone && b.cachedOutbound.any (cpaceFrom .allocator)
  | .finishedSent =>
    claim.isNone && b.freshScalar.isSome && b.peerCpace.any (cpaceFrom .claimant) &&
      b.cachedOutbound.any (finishedFrom .allocator) && b.peerFinished.all (finishedFrom .claimant)

def oldDomain : Bytes := ascii "cbcl-pairing allocator bootstrap/v2" ++ [0]
def domain : Bytes := ascii "cbcl-pairing allocator bootstrap/v3"
def maxFrameBytes : ℕ := 69600

def modeOctet : AllocatorMode → UInt8
  | .full => 0
  | .manual => 1

def phaseOctet : BootstrapPhase → UInt8
  | .allocated => 0
  | .claimed => 1
  | .shareSent => 2
  | .finishedSent => 3

def numberPhase (b : UInt8) : Except Error BootstrapPhase :=
  if b = 0 then .ok .allocated
  else if b = 1 then .ok .claimed
  else if b = 2 then .ok .shareSent
  else if b = 3 then .ok .finishedSent
  else .error .schema

/-- Unlike the endpoint layout, nothing empty and nothing over the frame bound. -/
def appendBounded (value : Bytes) : Except Error Bytes :=
  if value = [] ∨ maxFrameBytes < value.length then .error .size else appendBytes value

def appendOptionalFrame : Option Frame → Except Error Bytes
  | some frame => do
    let encoded ← encodeFrame frame
    let bytes ← appendBounded encoded
    .ok (1 :: bytes)
  | none => .ok [0]

def encodeInner (b : Bootstrap) (generation : UInt64) (nonce : Octets 12) : Except Error Bytes :=
  if !b.projectionIsConsistent then .error .schema
  else do
    let carrier ← appendBounded (encodeCarrier b.carrier)
    let peerCpace ← appendOptionalFrame b.peerCpace
    let peerFinished ← appendOptionalFrame b.peerFinished
    let cachedOutbound ← appendOptionalFrame b.cachedOutbound
    let output := (domain ++ [modeOctet b.mode]) ++ (carrier ++ b.profileDigest.val ++
      [phaseOctet b.phase] ++ b.presence.cpaceSecret.val ++
      optional Subtype.val b.presence.claimToken ++ b.relay.membershipToken.val ++
      [b.relay.nextLocalSequence, b.relay.nextPeerSequence, boolOctet b.relay.awaitingAck] ++
      optional Subtype.val b.freshScalar ++ peerCpace ++ peerFinished ++ cachedOutbound ++
      beBytes 8 generation.toNat ++ nonce.val)
    if maxInner < output.length then .error .size else .ok output

/-- The tag of the layout; the older layout had the full mode only. -/
def decodeMode (tag : Bytes) : Except Error AllocatorMode :=
  if tag = oldDomain then .ok .full
  else if tag.take domain.length = domain then
    match tag.drop domain.length with
    | [0] => .ok .full
    | [1] => .ok .manual
    | _ => .error .schema
  else .error .schema

/-- The pending channel a checkpoint stands for. -/
def rebuildPending (b : Bootstrap) : Except Error PendingChannel := do
  let scalar ← orSchema b.freshScalar
  let peerFrame ← orSchema b.peerCpace
  let peerMessage ← orSchema peerFrame.cpaceMessage
  let (state, localFrame) ← b.share scalar
  let pending ← b.schedule state localFrame peerFrame peerMessage
  if b.cachedOutbound ≠ some pending.localFinishedFrame then .error .profile else .ok pending

/-- Recompute what the retained scalar stands for before anything is replayed. -/
def revalidate (b : Bootstrap) : Except Error Bootstrap :=
  match b.phase with
  | .finishedSent => do
    let pending ← b.rebuildPending
    .ok { b with pending := some pending }
  | .shareSent => do
    let scalar ← orSchema b.freshScalar
    let (_, frame) ← b.share scalar
    if b.cachedOutbound ≠ some frame then .error .profile else .ok b
  | _ => .ok b

/-- Everything after the tag. -/
def decodeBody (mode : AllocatorMode) (expectedCarrier : Carrier) (expectedGeneration : UInt64)
    (expectedNonce : Octets 12) : Cursor Error Bootstrap := do
  let carrierBytes ← Read.lengthPrefixed maxInner
  let carrier ← Read.verdict (decodeCarrier carrierBytes)
  if carrier ≠ expectedCarrier then Cursor.fail .profile
  else do
    let profileDigest ← Read.array 32
    let phaseNumber ← Read.byte
    let phase ← Read.verdict (numberPhase phaseNumber)
    let cpaceSecret ← Read.array 16
    let claimToken ← Read.option (Read.array 16)
    let membershipToken ← Read.array 32
    let nextLocalSequence ← Read.byte
    let nextPeerSequence ← Read.byte
    let awaitingAck ← Read.boolean
    let freshScalar ← Read.option (Read.array 32)
    let peerCpace ← Read.option (Read.frame maxFrameBytes)
    let peerFinished ← Read.option (Read.frame maxFrameBytes)
    let cachedOutbound ← Read.option (Read.frame maxFrameBytes)
    let generation ← Read.u64
    let nonce ← Read.array 12
    let finished ← Read.finished
    if !finished ∨ generation ≠ expectedGeneration ∨ nonce ≠ expectedNonce then
      Cursor.fail .schema
    else do
      let b : Bootstrap :=
        { carrier, mode, presence := ⟨cpaceSecret, claimToken⟩, profileDigest
          relay := { membershipToken, nextLocalSequence, nextPeerSequence, awaitingAck
                     cachedOutbound := none }
          phase, freshScalar, peerCpace, peerFinished, pending := none, cachedOutbound
          checkpointGeneration := generation, checkpointNonce := some nonce }
      if !b.projectionIsConsistent then Cursor.fail .schema else Read.verdict b.revalidate

def decodeInner (expectedCarrier : Carrier) (expectedGeneration : UInt64)
    (expectedNonce : Octets 12) (expectedMode : AllocatorMode) : Cursor Error Bootstrap := do
  let tag ← Cursor.take .schema oldDomain.length
  let mode ← Read.verdict (decodeMode tag)
  if mode ≠ expectedMode then Cursor.fail .profile
  else decodeBody mode expectedCarrier expectedGeneration expectedNonce

def sealCheckpoint (wrappingKey : Octets 32) (generation : UInt64) (nonce : Octets 12)
    (now : UInt64) : Call Error Bootstrap Bytes := do
  let b ← get
  if b.carrier.relayExpiresAt ≤ now then throw .expired
  else if generation = 0 ∨ generation ≠ saturatingSucc b.checkpointGeneration ∨
      b.checkpointNonce = some nonce then throw .counter
  else do
    let plaintext ← Call.ofExcept (b.encodeInner generation nonce)
    let checkpoint ← Call.ofExcept (sealCheckpointPlaintext plaintext .allocator b.carrier
      wrappingKey generation (some b.carrier.relayExpiresAt) nonce)
    set { b with checkpointGeneration := generation, checkpointNonce := some nonce }
    pure checkpoint

def restoreCheckpoint (input : Bytes) (wrappingKey : Octets 32) (expectedCarrier : Carrier)
    (expectedGeneration now : UInt64) (expectedMode : AllocatorMode) : Except Error Bootstrap := do
  let opened ← openCheckpointPlaintext input wrappingKey .allocator expectedCarrier
    expectedGeneration now
  if opened.expiry ≠ some expectedCarrier.relayExpiresAt then .error .schema
  else do
    let (b, _) ← decodeInner expectedCarrier expectedGeneration opened.nonce expectedMode
      opened.plaintext
    .ok b

/-! ### What the calls do -/

theorem onRelay_eq_ok {α : Type} {m : Call Error RelayState α} {b b' : Bootstrap} {a : α} :
    onRelay m b = .ok a b' ↔ ∃ relay, m b.relay = .ok a relay ∧ b' = { b with relay } := by
  rw [onRelay, Call.zoom_eq_ok]
  simp only [eq_comm (a := b')]

theorem claimantAdmitted_eq_ok {b b' : Bootstrap} {u : Unit} :
    claimantAdmitted b = .ok u b' ↔ b.phase = .allocated ∧ b.presence.claimToken.isSome = true ∧
      b' = { b with presence := { b.presence with claimToken := none }, phase := .claimed } := by
  unfold claimantAdmitted Presence.takeClaimToken
  rw [Call.run_bind (Call.run_get b), Call.guard_eq_ok, not_not]
  refine and_congr_right fun _ => ?_
  simp only [Call.bind_eq_ok, Call.zoom_eq_ok, Call.get_eq_ok, Call.modify_eq_ok]
  constructor
  · rintro ⟨token, _, ⟨presence, ⟨_, _, ⟨rfl, rfl⟩, htoken⟩, rfl⟩, rfl⟩
    cases hclaim : b.presence.claimToken with
    | none => simp [hclaim] at htoken
    | some claim =>
      simp only [hclaim, Call.bind_eq_ok, Call.set_eq_ok, Call.pure_eq_ok] at htoken
      obtain ⟨_, _, rfl, rfl, rfl⟩ := htoken
      exact ⟨by simp, rfl⟩
  · rintro ⟨hclaim, rfl⟩
    obtain ⟨claim, hclaim⟩ := Option.isSome_iff_exists.mp hclaim
    refine ⟨claim, _, ⟨{ b.presence with claimToken := none }, ⟨_, _, ⟨rfl, rfl⟩, ?_⟩, rfl⟩, rfl⟩
    simp only [hclaim, Call.bind_eq_ok, Call.set_eq_ok, Call.pure_eq_ok]
    exact ⟨⟨⟩, _, rfl, trivial, rfl⟩

theorem startCpace_eq_ok {b b' : Bootstrap} {scalar : Octets 32} {frame : Frame} :
    startCpace scalar b = .ok frame b' ↔ b.phase = .claimed ∧
      ∃ state, b.share scalar = .ok (state, frame) ∧
        b' = { b with
          freshScalar := some scalar, cachedOutbound := some frame, phase := .shareSent } := by
  unfold startCpace
  rw [Call.run_bind (Call.run_get b), Call.guard_eq_ok, not_not]
  refine and_congr_right fun _ => ?_
  simp only [Call.bind_eq_ok, Call.ofExcept_eq_ok, Prod.exists, Call.set_eq_ok, Call.pure_eq_ok]
  constructor
  · rintro ⟨state, _, _, ⟨hshare, rfl⟩, _, _, rfl, rfl, rfl⟩
    exact ⟨state, hshare, rfl⟩
  · rintro ⟨state, hshare, rfl⟩
    exact ⟨state, frame, b, ⟨hshare, rfl⟩, ⟨⟩, _, rfl, rfl, rfl⟩

omit [Primitives] in
theorem not_any_ne {o : Option Frame} {frame : Frame} :
    ¬o.any (· != frame) = true ↔ ∀ retained ∈ o, retained = frame := by
  cases o <;> simp

theorem retainPeerCpace_eq_ok {b b' : Bootstrap} {frame : Frame} {u : Unit} :
    retainPeerCpace frame b = .ok u b' ↔ b.phase = .shareSent ∧ cpaceFrom .claimant frame = true ∧
      (∀ retained ∈ b.peerCpace, retained = frame) ∧ b' = { b with peerCpace := some frame } := by
  unfold retainPeerCpace
  rw [Call.run_bind (Call.run_get b), Call.guard_eq_ok, not_not]
  refine and_congr_right fun _ => ?_
  simp only [Call.bind_eq_ok, Call.orThrow_eq_ok, Call.guard_eq_ok, Call.set_eq_ok, not_any_ne,
    ne_eq, not_not]
  rw [cpaceFrom, Option.any_eq_true]
  simp only [beq_iff_eq]
  constructor
  · rintro ⟨message, _, ⟨hmessage, rfl⟩, hside, hretained, rfl⟩
    exact ⟨⟨message, hmessage, hside⟩, hretained, rfl⟩
  · rintro ⟨⟨message, hmessage, hside⟩, hretained, rfl⟩
    exact ⟨message, b, ⟨hmessage, rfl⟩, hside, hretained, rfl⟩

theorem prepareFinished_eq_ok {b b' : Bootstrap} {finished : Frame} :
    prepareFinished b = .ok finished b' ↔ b.phase = .shareSent ∧
      ∃ peerFrame peerMessage scalar state localFrame pending, b.peerCpace = some peerFrame ∧
        peerFrame.cpaceMessage = some peerMessage ∧ b.freshScalar = some scalar ∧
        b.share scalar = .ok (state, localFrame) ∧ b.cachedOutbound = some localFrame ∧
        b.schedule state localFrame peerFrame peerMessage = .ok pending ∧
        finished = pending.localFinishedFrame ∧
        b' = { b with
          pending := some pending, cachedOutbound := some pending.localFinishedFrame
          phase := .finishedSent } := by
  unfold prepareFinished
  rw [Call.run_bind (Call.run_get b), Call.guard_eq_ok, not_not]
  refine and_congr_right fun _ => ?_
  simp only [Call.bind_eq_ok, Call.ofExcept_eq_ok, Call.orThrow_eq_ok, Prod.exists,
    Call.guard_eq_ok, Call.set_eq_ok, Call.pure_eq_ok, ne_eq, not_not]
  constructor
  · rintro ⟨peerFrame, _, ⟨hpeer, rfl⟩, peerMessage, _, ⟨hmessage, rfl⟩, scalar, _,
      ⟨hscalar, rfl⟩, state, localFrame, _, ⟨hshare, rfl⟩, hcached, pending, _, ⟨hschedule, rfl⟩,
      _, _, rfl, rfl, rfl⟩
    exact ⟨peerFrame, peerMessage, scalar, state, localFrame, pending, hpeer, hmessage, hscalar,
      hshare, hcached, hschedule, rfl, rfl⟩
  · rintro ⟨peerFrame, peerMessage, scalar, state, localFrame, pending, hpeer, hmessage, hscalar,
      hshare, hcached, hschedule, rfl, rfl⟩
    exact ⟨peerFrame, b, ⟨hpeer, rfl⟩, peerMessage, b, ⟨hmessage, rfl⟩, scalar, b,
      ⟨hscalar, rfl⟩, state, localFrame, b, ⟨hshare, rfl⟩, hcached, pending, b, ⟨hschedule, rfl⟩,
      ⟨⟩, _, rfl, rfl, rfl⟩

theorem retainPeerFinished_eq_ok {b b' : Bootstrap} {frame : Frame} {u : Unit} :
    retainPeerFinished frame b = .ok u b' ↔ b.phase = .finishedSent ∧
      finishedFrom .claimant frame = true ∧ (∀ retained ∈ b.peerFinished, retained = frame) ∧
      b' = { b with peerFinished := some frame } := by
  unfold retainPeerFinished
  rw [Call.run_bind (Call.run_get b), Call.guard_eq_ok, not_not]
  refine and_congr_right fun _ => ?_
  simp only [Call.bind_eq_ok, Call.orThrow_eq_ok, Prod.exists, Call.guard_eq_ok, Call.set_eq_ok,
    not_any_ne, ne_eq, not_not]
  rw [finishedFrom, Option.any_eq_true]
  simp only [beq_iff_eq, Prod.exists]
  constructor
  · rintro ⟨side, value, _, ⟨hvalue, rfl⟩, hside, hretained, rfl⟩
    exact ⟨⟨side, value, hvalue, hside⟩, hretained, rfl⟩
  · rintro ⟨⟨side, value, hvalue, hside⟩, hretained, rfl⟩
    exact ⟨side, value, b, ⟨hvalue, rfl⟩, hside, hretained, rfl⟩

theorem confirm_eq_ok {b : Bootstrap} {frame : Frame} {channel : SecureChannel}
    {relay : RelayState} : b.confirm frame = .ok (channel, relay) ↔ b.phase = .finishedSent ∧
      relay = b.relay ∧ ∃ pending, b.pending = some pending ∧
        pending.confirm frame = .ok channel := by
  unfold confirm
  split_ifs with hphase
  · simp [hphase]
  · simp only [ne_eq, not_not] at hphase
    cases hpending : b.pending with
    | none => simp
    | some pending =>
      simp only [Calls.except_bind_eq_ok, Except.ok.injEq, Prod.mk.injEq, Option.some.injEq,
        exists_eq_left', hphase, true_and]
      constructor
      · rintro ⟨channel', hconfirm, rfl, rfl⟩
        exact ⟨rfl, hconfirm⟩
      · rintro ⟨rfl, hconfirm⟩
        exact ⟨channel, hconfirm, rfl, rfl⟩

/-! ### The round trip -/

def stamped (b : Bootstrap) (generation : UInt64) (nonce : Octets 12) : Bootstrap :=
  { b with checkpointGeneration := generation, checkpointNonce := some nonce }

/-- What every reachable bootstrap keeps: its relay caches no application frame,
and recomputing the pending channel gives back the state itself. -/
structure Coherent (b : Bootstrap) : Prop where
  uncached : b.relay.cachedOutbound = none
  recomputed : { b with pending := none }.revalidate = .ok b

omit [Primitives] in
theorem appendBounded_eq_ok {value bytes : Bytes} (h : appendBounded value = .ok bytes) :
    value ≠ [] ∧ value.length ≤ maxFrameBytes ∧ appendBytes value = .ok bytes := by
  unfold appendBounded at h
  split_ifs at h with hbound
  simp only [not_or, not_lt] at hbound
  exact ⟨hbound.1, hbound.2, h⟩

omit [Primitives] in
theorem optionalFrame_run {f : Option Frame} {bytes : Bytes} (h : appendOptionalFrame f = .ok bytes)
    (rest : Bytes) : Read.option (Read.frame maxFrameBytes) (bytes ++ rest) = .ok (f, rest) := by
  cases f with
  | none =>
    obtain rfl := Except.ok.inj h
    rfl
  | some f =>
    simp only [appendOptionalFrame, Calls.except_bind_eq_ok, Except.ok.injEq] at h
    obtain ⟨encoded, hencode, framed, happend, rfl⟩ := h
    obtain ⟨-, hlen, happend⟩ := appendBounded_eq_ok happend
    refine Read.option_run (fun _ => framed) (some f) ?_ rest
    rintro g hg rest
    obtain rfl := Option.some.inj hg
    exact Read.frame_run hencode happend hlen rest

omit [Primitives] in
theorem optionalArray_run {n : ℕ} (value : Option (Octets n)) (rest : Bytes) :
    Read.option (Read.array n) (optional Subtype.val value ++ rest) = .ok (value, rest) :=
  Read.option_run _ _ (fun x _ rest => Read.array_run x rest) rest

omit [Primitives] in
@[simp] theorem numberPhase_phaseOctet (phase : BootstrapPhase) :
    numberPhase (phaseOctet phase) = .ok phase := by
  cases phase <;> rfl

omit [Primitives] in
@[simp] theorem decodeMode_domain (mode : AllocatorMode) :
    decodeMode (domain ++ [modeOctet mode]) = .ok mode := by
  cases mode <;> rfl

theorem revalidate_stamped {b b' : Bootstrap} (h : b.revalidate = .ok b') (generation : UInt64)
    (nonce : Octets 12) :
    (b.stamped generation nonce).revalidate = .ok (b'.stamped generation nonce) := by
  obtain ⟨carrier, mode, presence, profileDigest, relay, phase, freshScalar, peerCpace,
    peerFinished, pending, cachedOutbound, _, _⟩ := b
  cases phase with
  | allocated =>
    obtain rfl := Except.ok.inj h
    rfl
  | claimed =>
    obtain rfl := Except.ok.inj h
    rfl
  | shareSent =>
    simp only [revalidate, stamped, Calls.except_bind_eq_ok] at h ⊢
    obtain ⟨scalar, hscalar, ⟨state, frame⟩, hshare, h⟩ := h
    refine ⟨scalar, hscalar, ⟨state, frame⟩, hshare, ?_⟩
    dsimp only at h ⊢
    split_ifs at h with hcached
    obtain rfl := Except.ok.inj h
    exact if_neg hcached
  | finishedSent =>
    simp only [revalidate, stamped, Calls.except_bind_eq_ok] at h ⊢
    obtain ⟨rebuilt, hrebuilt, h⟩ := h
    refine ⟨rebuilt, hrebuilt, ?_⟩
    obtain rfl := Except.ok.inj h
    rfl

theorem projectionIsConsistent_unstamped (b : Bootstrap) (generation : UInt64) (nonce : Octets 12)
    (h : b.projectionIsConsistent = true) :
    ({ b with pending := none }.stamped generation nonce).projectionIsConsistent = true := by
  unfold projectionIsConsistent stamped at *
  cases hphase : b.phase <;> simp_all

theorem decodeInner_encodeInner {b : Bootstrap} {generation : UInt64} {nonce : Octets 12}
    {plaintext : Bytes} (h : b.encodeInner generation nonce = .ok plaintext)
    (hcoherent : b.Coherent) :
    decodeInner b.carrier generation nonce b.mode plaintext =
      .ok (b.stamped generation nonce, []) := by
  unfold encodeInner at h
  by_cases hconsistent : b.projectionIsConsistent = true
  swap
  · simp [hconsistent] at h
  rw [if_neg (by simpa using hconsistent)] at h
  simp only [Calls.except_bind_eq_ok] at h
  obtain ⟨carrier, hcarrier, peerCpace, hpeerCpace, peerFinished, hpeerFinished, cachedOutbound,
    hcached, h⟩ := h
  split_ifs at h
  obtain rfl := Except.ok.inj h
  obtain ⟨hcarrierNe, -, hcarrier⟩ := appendBounded_eq_ok hcarrier
  have hcarrierLength : (encodeCarrier b.carrier).length ≤ maxInner := by
    have := Carrier.encodeCarrier_length_le b.carrier
    unfold maxInner maxCiphertext
    omega
  have htag : (domain ++ [modeOctet b.mode]).length = oldDomain.length := by
    rw [List.length_append, List.length_singleton]
    decide
  have hend := Read.array_run nonce []
  rw [List.append_nil] at hend
  have hfinished : Read.finished ([] : Bytes) = .ok (true, []) := rfl
  -- what is read back is the state itself without its pending channel
  have hread : ({ b with pending := none }.stamped generation nonce) =
      { carrier := b.carrier, mode := b.mode
        presence := ⟨b.presence.cpaceSecret, b.presence.claimToken⟩
        profileDigest := b.profileDigest
        relay := { membershipToken := b.relay.membershipToken
                   nextLocalSequence := b.relay.nextLocalSequence
                   nextPeerSequence := b.relay.nextPeerSequence
                   awaitingAck := b.relay.awaitingAck, cachedOutbound := none }
        phase := b.phase, freshScalar := b.freshScalar, peerCpace := b.peerCpace
        peerFinished := b.peerFinished, pending := none, cachedOutbound := b.cachedOutbound
        checkpointGeneration := generation, checkpointNonce := some nonce } := by
    unfold stamped
    rw [← hcoherent.uncached]
  unfold decodeInner
  rw [Cursor.run_bind_ok (Cursor.take_append htag),
    Cursor.run_bind_ok (Read.verdict_run (decodeMode_domain b.mode) _), if_neg (by simp)]
  unfold decodeBody
  simp only [List.append_assoc, List.cons_append, List.nil_append]
  rw [Cursor.run_bind_ok (Read.lengthPrefixed_run hcarrier hcarrierLength
      (List.length_pos_iff.mpr hcarrierNe) _),
    Cursor.run_bind_ok (Read.verdict_run (Carrier.decodeCarrier_encodeCarrier _) _),
    if_neg (by simp), Cursor.run_bind_ok (Read.array_run _ _),
    Cursor.run_bind_ok (Read.byte_run _ _),
    Cursor.run_bind_ok (Read.verdict_run (numberPhase_phaseOctet _) _),
    Cursor.run_bind_ok (Read.array_run _ _), Cursor.run_bind_ok (optionalArray_run _ _),
    Cursor.run_bind_ok (Read.array_run _ _), Cursor.run_bind_ok (Read.byte_run _ _),
    Cursor.run_bind_ok (Read.byte_run _ _), Cursor.run_bind_ok (Read.boolean_run _ _),
    Cursor.run_bind_ok (optionalArray_run _ _), Cursor.run_bind_ok (optionalFrame_run hpeerCpace _),
    Cursor.run_bind_ok (optionalFrame_run hpeerFinished _),
    Cursor.run_bind_ok (optionalFrame_run hcached _), Cursor.run_bind_ok (Read.u64_run _ _),
    Cursor.run_bind_ok hend, Cursor.run_bind_ok hfinished, if_neg (by simp), ← hread,
    if_neg (by simpa using projectionIsConsistent_unstamped b generation nonce hconsistent)]
  exact Read.verdict_run (revalidate_stamped hcoherent.recomputed generation nonce) []

theorem sealCheckpoint_eq_ok {wrappingKey : Octets 32} {generation now : UInt64}
    {nonce : Octets 12} {b b' : Bootstrap} {checkpoint : Bytes} :
    sealCheckpoint wrappingKey generation nonce now b = .ok checkpoint b' ↔
      now < b.carrier.relayExpiresAt ∧
      (generation ≠ 0 ∧ generation = saturatingSucc b.checkpointGeneration ∧
        b.checkpointNonce ≠ some nonce) ∧
      (∃ plaintext, b.encodeInner generation nonce = .ok plaintext ∧
        sealCheckpointPlaintext plaintext .allocator b.carrier wrappingKey generation
          (some b.carrier.relayExpiresAt) nonce = .ok checkpoint) ∧
      b' = b.stamped generation nonce := by
  unfold sealCheckpoint
  rw [Call.run_bind (Call.run_get b)]
  by_cases hexpired : b.carrier.relayExpiresAt ≤ now
  · simp [hexpired]
  rw [if_neg hexpired]
  rw [UInt64.not_le] at hexpired
  by_cases hcounter : generation = 0 ∨ generation ≠ saturatingSucc b.checkpointGeneration ∨
      b.checkpointNonce = some nonce
  · rw [if_pos hcounter, Call.throw_eq_ok, false_iff]
    rintro ⟨-, ⟨hzero, hnext, hnonce⟩, -⟩
    rcases hcounter with h | h | h
    · exact hzero h
    · exact h hnext
    · exact hnonce h
  rw [if_neg hcounter]
  simp only [not_or, ne_eq, not_not] at hcounter
  simp only [Call.bind_eq_ok, Call.ofExcept_eq_ok, Call.set_eq_ok, Call.pure_eq_ok]
  constructor
  · rintro ⟨plaintext, _, ⟨hencode, rfl⟩, _, _, ⟨hseal, rfl⟩, _, _, rfl, rfl, rfl⟩
    exact ⟨hexpired, hcounter, ⟨plaintext, hencode, hseal⟩, rfl⟩
  · rintro ⟨-, -, ⟨plaintext, hencode, hseal⟩, rfl⟩
    exact ⟨plaintext, b, ⟨hencode, rfl⟩, checkpoint, b, ⟨hseal, rfl⟩, ⟨⟩, _, rfl, rfl, rfl⟩

/-- A sealed bootstrap is restored, as it was, at any time before its expiry. -/
theorem restoreCheckpoint_sealCheckpoint {wrappingKey : Octets 32} {generation now later : UInt64}
    {nonce : Octets 12} {b b' : Bootstrap} {checkpoint : Bytes}
    (h : sealCheckpoint wrappingKey generation nonce now b = .ok checkpoint b')
    (hcoherent : b.Coherent) (hlater : later < b.carrier.relayExpiresAt) :
    restoreCheckpoint checkpoint wrappingKey b.carrier generation later b.mode = .ok b' := by
  obtain ⟨-, ⟨hgeneration, -, -⟩, ⟨plaintext, hencode, hseal⟩, rfl⟩ := sealCheckpoint_eq_ok.mp h
  have hlive : ∀ value ∈ some b.carrier.relayExpiresAt, later < value := by
    intro value hvalue
    obtain rfl := Option.some.inj hvalue
    exact hlater
  have hopen := openCheckpointPlaintext_seal hseal hgeneration hlive
  unfold restoreCheckpoint
  rw [hopen, Calls.ok_bind, if_neg (by simp), decodeInner_encodeInner hencode hcoherent]
  rfl

end Bootstrap
end CredentialV2
end CbclPairing
