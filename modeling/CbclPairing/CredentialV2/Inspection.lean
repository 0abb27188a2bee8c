import CbclPairing.CredentialV2.AllocatorRuns
import CbclPairing.CredentialV2.Restored

/-! Authenticated facts about a saved allocator, with no live capability, and their
agreement with a restore. -/
namespace CbclPairing
namespace CredentialV2
open Codec Codec.Cbor Calls

variable [Primitives]

/-! ### The receipt commitment -/

/-- HMAC over SHA-256, whose block has 64 octets. -/
def hmacSha256 (key : Octets 32) (msg : Bytes) : Octets 32 :=
  let block := key.val ++ List.replicate 32 0
  sha256 (block.map (· ^^^ 0x5c) ++ (sha256 (block.map (· ^^^ 0x36) ++ msg)).val)

namespace SecureChannel

def receiptRecoveryToken (c : SecureChannel) : Octets 32 :=
  hmacSha256 c.exporter (ascii "selfsame credential/v2 receipt recovery token v1" ++ [0] ++
    c.transcriptHash.val)

/-- The public commitment to the token, bound to the carrier. -/
def receiptRecoveryCommitment (c : SecureChannel) (carrier : Carrier) : Octets 32 :=
  sha256 (ascii "selfsame credential/v2 receipt recovery commitment v1" ++ [0] ++
    c.receiptRecoveryToken.val ++ carrier.carrierCeremonyId.val ++ carrier.applicationContext)

end SecureChannel

/-! ### Opening without a clock -/

inductive CheckpointPurpose where
  | resumeAt (now : UInt64)
  | inspect

/-- Only a resumption looks at the clock. -/
def CheckpointPurpose.tooLate (expiry : Option UInt64) : CheckpointPurpose → Bool
  | .resumeAt now => expiry.any fun expiry => expiry ≤ now
  | .inspect => false

def openCheckpointFor (input : Bytes) (wrappingKey : Octets 32) (expectedSide : Side)
    (expectedCarrier : Carrier) (expectedGeneration : UInt64) (purpose : CheckpointPurpose) :
    Except Error OpenedCheckpoint := do
  let outer ← decodeOuter input
  if outer.side ≠ expectedSide ∨ outer.ceremony ≠ expectedCarrier.carrierCeremonyId ∨
      outer.generation = 0 ∨ outer.generation ≠ expectedGeneration then .error .profile
  else if purpose.tooLate outer.expiry then .error .expired
  else
    match aesGcmDecrypt (deriveKey outer.side outer.ceremony wrappingKey) outer.nonce
      (checkpointAad outer.side outer.ceremony outer.generation outer.expiry) outer.ciphertext with
    | none => .error .authentication
    | some plaintext => .ok ⟨plaintext, outer.expiry, outer.nonce⟩

theorem openCheckpointFor_resumeAt (input : Bytes) (wrappingKey : Octets 32) (side : Side)
    (carrier : Carrier) (generation now : UInt64) :
    openCheckpointFor input wrappingKey side carrier generation (.resumeAt now) =
      openCheckpointPlaintext input wrappingKey side carrier generation now := rfl

def inspectCheckpointPlaintext (input : Bytes) (wrappingKey : Octets 32) (carrier : Carrier)
    (generation : UInt64) : Except Error OpenedCheckpoint :=
  openCheckpointFor input wrappingKey .allocator carrier generation .inspect

/-- What resumes is what inspection opens, while it has not expired. -/
theorem openCheckpointPlaintext_eq_ok {input : Bytes} {wrappingKey : Octets 32}
    {carrier : Carrier} {generation now : UInt64} {opened : OpenedCheckpoint} :
    openCheckpointPlaintext input wrappingKey .allocator carrier generation now = .ok opened ↔
      inspectCheckpointPlaintext input wrappingKey carrier generation = .ok opened ∧
        ∀ expiry ∈ opened.expiry, now < expiry := by
  unfold inspectCheckpointPlaintext
  rw [← openCheckpointFor_resumeAt]
  unfold openCheckpointFor
  simp only [Calls.except_bind_eq_ok, Calls.guard_eq_ok]
  constructor
  · rintro ⟨outer, houter, hbound, hlive, hopen⟩
    refine ⟨⟨outer, houter, hbound, by simp [CheckpointPurpose.tooLate], hopen⟩, ?_⟩
    split at hopen
    · cases hopen
    · obtain rfl := Except.ok.inj hopen
      rintro expiry hexpiry
      have hexpiry : outer.expiry = some expiry := hexpiry
      simpa [CheckpointPurpose.tooLate, hexpiry] using hlive
  · rintro ⟨⟨outer, houter, hbound, -, hopen⟩, hlater⟩
    refine ⟨outer, houter, hbound, ?_, hopen⟩
    split at hopen
    · cases hopen
    · obtain rfl := Except.ok.inj hopen
      cases hexpiry : outer.expiry with
      | none => simp [CheckpointPurpose.tooLate]
      | some expiry => simpa [CheckpointPurpose.tooLate] using hlater expiry hexpiry

def Bootstrap.inspectCheckpoint (input : Bytes) (wrappingKey : Octets 32) (carrier : Carrier)
    (generation : UInt64) (expectedMode : AllocatorMode) : Except Error Bootstrap := do
  let opened ← inspectCheckpointPlaintext input wrappingKey carrier generation
  if opened.expiry ≠ some carrier.relayExpiresAt then .error .schema
  else do
    let (b, _) ← decodeInner carrier generation opened.nonce expectedMode opened.plaintext
    .ok b

theorem Bootstrap.restoreCheckpoint_iff_inspect {input : Bytes} {wrappingKey : Octets 32}
    {carrier : Carrier} {generation now : UInt64} {mode : AllocatorMode} {b : Bootstrap} :
    restoreCheckpoint input wrappingKey carrier generation now mode = .ok b ↔
      inspectCheckpoint input wrappingKey carrier generation mode = .ok b ∧
        now < carrier.relayExpiresAt := by
  unfold restoreCheckpoint inspectCheckpoint
  simp only [Calls.except_bind_eq_ok, Calls.guard_eq_ok, openCheckpointPlaintext_eq_ok, ne_eq,
    not_not]
  constructor
  · rintro ⟨opened, ⟨hopened, hlater⟩, hexpiry, hdecode⟩
    exact ⟨⟨opened, hopened, hexpiry, hdecode⟩, hlater _ hexpiry⟩
  · rintro ⟨⟨opened, hopened, hexpiry, hdecode⟩, hlater⟩
    refine ⟨opened, ⟨hopened, ?_⟩, hexpiry, hdecode⟩
    rw [hexpiry]
    rintro _ ⟨⟩
    exact hlater

section Verified

variable {V W : Type} [BodyVerifier V] [BodyVerifier W]

/-- Decode an allocator endpoint for a projection that is consumed at once. The shape
and terminal rules hold whatever the clock. -/
def inspectAllocatorEndpoint (input : Bytes) (wrappingKey : Octets 32) (carrier : Carrier)
    (generation : UInt64) (bodyVerifier : V) : Except Error (Established V) := do
  let opened ← inspectCheckpointPlaintext input wrappingKey carrier generation
  let (s, _) ← decodeInner .allocator carrier generation opened.nonce bodyVerifier opened.plaintext
  if s.endpoint.phase = .terminal ∧ !s.endpoint.receiptReleased then .error .terminal
  else if opened.expiry ≠ some carrier.relayExpiresAt then .error .schema
  else .ok s

theorem Endpoint.restoreCheckpoint_iff_inspect {input : Bytes} {wrappingKey : Octets 32}
    {carrier : Carrier} {generation now : UInt64} {v : V} {s : Established V} :
    restoreCheckpoint input wrappingKey .allocator carrier generation now v = .ok s ↔
      inspectAllocatorEndpoint input wrappingKey carrier generation v = .ok s ∧
        now < carrier.relayExpiresAt := by
  unfold restoreCheckpoint inspectAllocatorEndpoint
  simp only [Calls.except_bind_eq_ok, Calls.guard_eq_ok, openCheckpointPlaintext_eq_ok,
    Prod.exists, Except.ok.injEq, ne_eq, not_not]
  -- a decoded endpoint is the expected side's and has the expected carrier
  have hbindings : ∀ {opened : OpenedCheckpoint} {s rest},
      decodeInner .allocator carrier generation opened.nonce v opened.plaintext = .ok (s, rest) →
        (validateCheckpointPhase s.endpoint.side s.endpoint.phase s.endpoint.receiptReleased
            opened.expiry s.endpoint.carrier.relayExpiresAt now = .ok () ↔
          ¬ (s.endpoint.phase = .terminal ∧ (!s.endpoint.receiptReleased) = true) ∧
            opened.expiry = some carrier.relayExpiresAt ∧ now < carrier.relayExpiresAt) := by
    intro opened s rest hdecode
    obtain ⟨-, -, hside, hcarrier, -⟩ := decodeInner_yields _ _ _ _ _ hdecode
    rw [hside, hcarrier]
    unfold validateCheckpointPhase
    rw [Calls.guard_eq_ok, validateExpiry_eq_ok]
    simp only [beq_self_eq_true, Bool.true_and]
  constructor
  · rintro ⟨opened, ⟨hopened, -⟩, s, rest, hdecode, _, hphase, rfl⟩
    obtain ⟨hterminal, hexpiry, hlater⟩ := (hbindings hdecode).mp hphase
    exact ⟨⟨opened, hopened, s, rest, hdecode, hterminal, hexpiry, rfl⟩, hlater⟩
  · rintro ⟨⟨opened, hopened, s, rest, hdecode, hterminal, hexpiry, rfl⟩, hlater⟩
    refine ⟨opened, ⟨hopened, ?_⟩, s, rest, hdecode, ⟨⟩,
      (hbindings hdecode).mpr ⟨hterminal, hexpiry, hlater⟩, rfl⟩
    rw [hexpiry]
    rintro _ ⟨⟩
    exact hlater

/-! ### Verifiers that take the same states -/

/-- Two verifiers that restore the same states. -/
def Interchangeable (v : V) (w : W) : Prop :=
  ∀ state, (BodyVerifier.restoreCheckpointState v state).1 =
    (BodyVerifier.restoreCheckpointState w state).1

omit [Primitives] [BodyVerifier V] [BodyVerifier W] in
theorem Read.verdict_congr {α : Type} {x : Except Error V} {y : Except Error W}
    {f : V → Cursor Error α} {g : W → Cursor Error α}
    (h : x.map (fun _ => ()) = y.map fun _ => ()) (hfg : ∀ v w, f v = g w) :
    (Read.verdict x >>= f) = Read.verdict y >>= g := by
  cases x with
  | ok v =>
    cases y with
    | ok w => exact hfg v w
    | error e => cases h
  | error e =>
    cases y with
    | ok w => cases h
    | error e' =>
      obtain rfl := Except.error.inj h
      rfl

omit [Primitives] in
theorem restoreVerifier_congr {v : V} {w : W} (h : Interchangeable v w) (state : Bytes) :
    (restoreVerifier v state).map (fun _ => ()) = (restoreVerifier w state).map fun _ => () := by
  have hsame := h state
  unfold restoreVerifier
  rcases hv : BodyVerifier.restoreCheckpointState v state with ⟨verdict, v'⟩
  rcases hw : BodyVerifier.restoreCheckpointState w state with ⟨verdict', w'⟩
  rw [hv, hw] at hsame
  obtain rfl : verdict = verdict' := hsame
  cases verdict <;> rfl

omit [BodyVerifier V] in
/-- The state without its verifier. -/
def Established.unverified (s : Established V) : Established Unit where
  endpoint :=
    { side := s.endpoint.side, carrier := s.endpoint.carrier, phase := s.endpoint.phase
      intentDigest := s.endpoint.intentDigest, last := s.endpoint.last, bodyVerifier := ()
      checkpointGeneration := s.endpoint.checkpointGeneration
      checkpointNonce := s.endpoint.checkpointNonce }
  channel := s.channel
  relay := s.relay

theorem decodeInner_congr {v : V} {w : W} (h : Interchangeable v w) (side : Side)
    (carrier : Carrier) (generation : UInt64) (nonce : Octets 12) :
    Established.unverified <$> decodeInner side carrier generation nonce v =
      Established.unverified <$> decodeInner side carrier generation nonce w := by
  unfold decodeInner
  simp only [map_bind, apply_ite (Established.unverified <$> ·)]
  refine bind_congr fun _ => if_congr Iff.rfl rfl (bind_congr fun _ => bind_congr fun _ =>
    bind_congr fun _ => if_congr Iff.rfl rfl (bind_congr fun _ => bind_congr fun _ =>
    bind_congr fun _ => bind_congr fun _ => bind_congr fun state =>
    Read.verdict_congr (restoreVerifier_congr h state) fun _ _ => bind_congr fun _ =>
    bind_congr fun _ => bind_congr fun _ => bind_congr fun _ => bind_congr fun _ =>
    if_congr Iff.rfl rfl rfl))

theorem inspectAllocatorEndpoint_congr {v : V} {w : W} (h : Interchangeable v w) (input : Bytes)
    (wrappingKey : Octets 32) (carrier : Carrier) (generation : UInt64) :
    (inspectAllocatorEndpoint input wrappingKey carrier generation v).map
        Established.unverified =
      (inspectAllocatorEndpoint input wrappingKey carrier generation w).map
        Established.unverified := by
  unfold inspectAllocatorEndpoint
  cases inspectCheckpointPlaintext input wrappingKey carrier generation with
  | error e => rfl
  | ok opened =>
    rw [Calls.ok_bind, Calls.ok_bind]
    have hdecode := congrFun (decodeInner_congr h .allocator carrier generation opened.nonce)
      opened.plaintext
    simp only [Functor.map, StateT.map] at hdecode
    cases hv : decodeInner .allocator carrier generation opened.nonce v opened.plaintext with
    | error e =>
      cases hw : decodeInner .allocator carrier generation opened.nonce w opened.plaintext with
      | error e' =>
        rw [hv, hw] at hdecode
        obtain rfl := Except.error.inj hdecode
        rfl
      | ok t =>
        rw [hv, hw] at hdecode
        cases hdecode
    | ok s =>
      cases hw : decodeInner .allocator carrier generation opened.nonce w opened.plaintext with
      | error e' =>
        rw [hv, hw] at hdecode
        cases hdecode
      | ok t =>
        rw [hv, hw] at hdecode
        obtain ⟨hsame, -⟩ := Prod.mk.inj (Except.ok.inj hdecode)
        have hphase : s.1.endpoint.phase = t.1.endpoint.phase :=
          congrArg (fun s => s.endpoint.phase) hsame
        have hreceipt : s.1.endpoint.receiptReleased = t.1.endpoint.receiptReleased :=
          congrArg (fun s => s.endpoint.receiptReleased) hsame
        rw [Calls.ok_bind, Calls.ok_bind]
        dsimp only
        rw [hphase, hreceipt]
        split_ifs
        · rfl
        · rfl
        · exact congrArg Except.ok hsame

end Verified

/-! ### Inspection -/

/-- Facts for the closure of a saved invitation. None of them grants anything. -/
structure Inspection where
  bootstrap : Option (BootstrapPhase × AllocatorMode)
  endpoint : Option Phase
  transcriptHash : Option (Octets 64)
  lastReceived : Option Object
  terminalReceipt : Option (Octets 32 × Octets 32)
  receiptCommitment : Option (Octets 32)
  expired : Bool

/-- The last object, when the peer sent it and its bytes are retained. -/
def lastFromPeer (last : Option LastObject) : Except Error (Option Object) :=
  match (last.filter fun last => last.sender != .allocator).bind LastObject.bytes with
  | none => .ok none
  | some bytes => (decodeObject bytes).map some

/-- Authenticate the bindings a restore authenticates. The clock gives only a hint. -/
def Inspection.inspect {V : Type} [BodyVerifier V] (checkpoint : Bytes) (wrappingKey : Octets 32)
    (carrier : Carrier) (expectedGeneration : UInt64) (expectedProfileDigest : Octets 32)
    (now : UInt64) (expectedMode : AllocatorMode) (bodyVerifier : V) : Except Error Inspection :=
  let expired := decide (carrier.relayExpiresAt ≤ now)
  match Bootstrap.inspectCheckpoint checkpoint wrappingKey carrier expectedGeneration
    expectedMode with
  | .ok b =>
    if b.profileDigest ≠ expectedProfileDigest then .error .profile
    else .ok
      { bootstrap := some (b.phase, b.mode), endpoint := none, transcriptHash := none
        lastReceived := none, terminalReceipt := none, receiptCommitment := none, expired }
  | .error _ => do
    let s ← inspectAllocatorEndpoint checkpoint wrappingKey carrier expectedGeneration bodyVerifier
    let lastReceived ← lastFromPeer s.endpoint.last
    let terminalReceipt :=
      if s.endpoint.receiptReleased then
        s.endpoint.last.map fun last => (last.intentDigest, last.contentHash)
      else none
    .ok
      { bootstrap := none, endpoint := some s.endpoint.phase
        transcriptHash := some s.channel.transcriptHash, lastReceived, terminalReceipt
        receiptCommitment := some (s.channel.receiptRecoveryCommitment carrier), expired }

namespace AllocatorSession

variable {V : Type}

def bootstrapPhase (s : AllocatorSession V) : Option BootstrapPhase :=
  s.bootstrap?.map Bootstrap.phase

def bootstrapMode (s : AllocatorSession V) : Option AllocatorMode := s.bootstrap?.map Bootstrap.mode

def endpointPhase (s : AllocatorSession V) : Option Phase :=
  s.established?.map fun e => e.endpoint.phase

def transcriptHash (s : AllocatorSession V) : Option (Octets 64) :=
  s.established?.map fun e => e.channel.transcriptHash

def lastReceivedObject (s : AllocatorSession V) : Except Error (Option Object) :=
  match s.established? with
  | none => .ok none
  | some e =>
    match e.endpoint.last with
    | none => .ok none
    | some last =>
      if last.sender = .allocator then .ok none
      else
        match last.bytes with
        | none => .ok none
        | some bytes => (decodeObject bytes).map some

def receiptRecoveryCommitment (s : AllocatorSession V) : Except Error (Octets 32) :=
  match s.established? with
  | some e => .ok (e.channel.receiptRecoveryCommitment e.endpoint.carrier)
  | none => .error .phase

end AllocatorSession

/-- An inspection and a session report the same facts. -/
structure Inspection.Reports {V : Type} (i : Inspection) (s : AllocatorSession V) : Prop where
  bootstrapPhase : i.bootstrap.map Prod.fst = s.bootstrapPhase
  bootstrapMode : i.bootstrap.map Prod.snd = s.bootstrapMode
  endpointPhase : i.endpoint = s.endpointPhase
  transcriptHash : i.transcriptHash = s.transcriptHash
  lastReceived : .ok i.lastReceived = s.lastReceivedObject
  receiptCommitment : i.receiptCommitment = s.receiptRecoveryCommitment.toOption

theorem lastFromPeer_unverified {V : Type} (s : Established V) :
    lastFromPeer s.unverified.endpoint.last = lastFromPeer s.endpoint.last := rfl

/-- Two ways to leave out the own object. -/
theorem AllocatorSession.lastReceivedObject_established {V : Type} {s : AllocatorSession V}
    {e : Established V} (h : s.established? = some e) :
    s.lastReceivedObject = lastFromPeer e.endpoint.last := by
  unfold lastReceivedObject lastFromPeer
  rw [h]
  dsimp only
  cases e.endpoint.last with
  | none => rfl
  | some last =>
    by_cases hsender : last.sender = .allocator
    · simp [Option.filter, hsender]
    · simp [Option.filter, hsender]

variable {V W : Type} [BodyVerifier V] [BodyVerifier W]

/-- Retained bytes are those of an object. -/
theorem lastFromPeer_ok {input : Bytes} {wrappingKey : Octets 32} {carrier : Carrier}
    {generation : UInt64} {v : V} {s : Established V}
    (h : inspectAllocatorEndpoint input wrappingKey carrier generation v = .ok s) :
    ∃ object, lastFromPeer s.endpoint.last = .ok object := by
  simp only [inspectAllocatorEndpoint, Calls.except_bind_eq_ok, Calls.guard_eq_ok, Prod.exists,
    Except.ok.injEq] at h
  obtain ⟨opened, -, s, rest, hdecode, -, -, rfl⟩ := h
  obtain ⟨hcoherent, -⟩ := decodeInner_yields _ _ _ _ _ hdecode
  unfold lastFromPeer
  split
  · exact ⟨none, rfl⟩
  · next bytes hbytes =>
    obtain ⟨last, hlast, hbytes⟩ := Option.bind_eq_some_iff.mp hbytes
    obtain ⟨hlast, -⟩ := Option.filter_eq_some_iff.mp hlast
    obtain ⟨object, rfl, -⟩ := hcoherent.sound.faithful last hlast bytes hbytes
    exact ⟨some object, by rw [object.decodeObject_bytes]; rfl⟩

section Agreement

variable {checkpoint : Bytes} {wrappingKey : Octets 32} {carrier : Carrier} {generation : UInt64}
  (profileDigest scalar : Octets 32) {mode : AllocatorMode} {now : UInt64} {v : V} {w : W}

/-- A saved bootstrap is one for both, and stands or falls with its profile digest. -/
theorem bootstrap_agrees (v : V) (w : W) (hlater : now < carrier.relayExpiresAt) {b : Bootstrap}
    (hb : Bootstrap.inspectCheckpoint checkpoint wrappingKey carrier generation mode = .ok b) :
    (b.profileDigest ≠ profileDigest ∧
      Inspection.inspect checkpoint wrappingKey carrier generation profileDigest now mode v =
        .error .profile ∧
      AllocatorSession.restore checkpoint wrappingKey carrier generation profileDigest now mode
        scalar w = .error .profile) ∨
    ∃ i s, i.Reports s ∧
      Inspection.inspect checkpoint wrappingKey carrier generation profileDigest now mode v =
        .ok i ∧
      AllocatorSession.restore checkpoint wrappingKey carrier generation profileDigest now mode
        scalar w = .ok s := by
  have hrestore := Bootstrap.restoreCheckpoint_iff_inspect.mpr ⟨hb, hlater⟩
  unfold Inspection.inspect AllocatorSession.restore
  rw [hb, hrestore]
  dsimp only
  by_cases hdigest : b.profileDigest = profileDigest
  · rw [if_neg (not_not.mpr hdigest), if_neg (not_not.mpr hdigest)]
    exact .inr ⟨_, _, ⟨rfl, rfl, rfl, rfl, rfl, rfl⟩, rfl, rfl⟩
  · rw [if_pos hdigest, if_pos hdigest]
    exact .inl ⟨hdigest, rfl, rfl⟩

/-- A saved endpoint is one for both. -/
theorem endpoint_agrees (h : Interchangeable v w) (hlater : now < carrier.relayExpiresAt)
    {e : Error}
    (hb : Bootstrap.inspectCheckpoint checkpoint wrappingKey carrier generation mode = .error e) :
    (∃ e e',
      Inspection.inspect checkpoint wrappingKey carrier generation profileDigest now mode v =
        .error e ∧
      AllocatorSession.restore checkpoint wrappingKey carrier generation profileDigest now mode
        scalar w = .error e') ∨
    ∃ i s, i.Reports s ∧
      Inspection.inspect checkpoint wrappingKey carrier generation profileDigest now mode v =
        .ok i ∧
      AllocatorSession.restore checkpoint wrappingKey carrier generation profileDigest now mode
        scalar w = .ok s := by
  have hsame := inspectAllocatorEndpoint_congr h checkpoint wrappingKey carrier generation
  unfold Inspection.inspect AllocatorSession.restore
  rw [hb]
  cases hrestore : Bootstrap.restoreCheckpoint checkpoint wrappingKey carrier generation now
    mode with
  | ok b =>
    rw [(Bootstrap.restoreCheckpoint_iff_inspect.mp hrestore).1] at hb
    cases hb
  | error e' =>
    dsimp only
    cases hv : inspectAllocatorEndpoint checkpoint wrappingKey carrier generation v with
    | error e₁ =>
      cases hw : Endpoint.restoreCheckpoint checkpoint wrappingKey .allocator carrier generation
        now w with
      | error e₂ => exact .inl ⟨e₁, e₂, rfl, rfl⟩
      | ok t =>
        rw [hv, (Endpoint.restoreCheckpoint_iff_inspect.mp hw).1] at hsame
        cases hsame
    | ok s =>
      obtain ⟨object, hobject⟩ := lastFromPeer_ok hv
      cases hw : inspectAllocatorEndpoint checkpoint wrappingKey carrier generation w with
      | error e₂ =>
        rw [hv, hw] at hsame
        cases hsame
      | ok t =>
        rw [hv, hw] at hsame
        have hsame : s.unverified = t.unverified := Except.ok.inj hsame
        have hrestored := Endpoint.restoreCheckpoint_iff_inspect.mpr ⟨hw, hlater⟩
        have hcarrier := (Endpoint.restoreCheckpoint_eq_ok hrestored).carrier
        rw [hrestored, Calls.ok_bind, Calls.ok_bind, hobject, Calls.ok_bind]
        refine .inr ⟨_, _, ⟨rfl, rfl, ?_, ?_, ?_, ?_⟩, rfl, rfl⟩
        · exact congrArg (fun s => some s.endpoint.phase) hsame
        · exact congrArg (fun s => some s.channel.transcriptHash) hsame
        · rw [AllocatorSession.lastReceivedObject_established rfl, ← hobject,
            ← lastFromPeer_unverified, hsame, lastFromPeer_unverified]
        · have hchannel : s.channel = t.channel := congrArg Established.channel hsame
          show some _ = some (t.channel.receiptRecoveryCommitment t.endpoint.carrier)
          rw [hchannel, hcarrier]

/-- At or after the expiry nothing is restored. -/
theorem restore_expired (hexpired : carrier.relayExpiresAt ≤ now) :
    ∃ e, AllocatorSession.restore checkpoint wrappingKey carrier generation profileDigest now mode
      scalar w = .error e := by
  have hnot : ¬ now < carrier.relayExpiresAt := UInt64.not_lt.mpr hexpired
  unfold AllocatorSession.restore
  cases hb : Bootstrap.restoreCheckpoint checkpoint wrappingKey carrier generation now mode with
  | ok b => exact absurd (Bootstrap.restoreCheckpoint_iff_inspect.mp hb).2 hnot
  | error e =>
    dsimp only
    cases hw : Endpoint.restoreCheckpoint checkpoint wrappingKey .allocator carrier generation
      now w with
    | ok t => exact absurd (Endpoint.restoreCheckpoint_iff_inspect.mp hw).2 hnot
    | error e' => exact ⟨e', rfl⟩

/-- The clock decides nothing but the hint. -/
theorem inspect_clock (later : UInt64) :
    Inspection.inspect checkpoint wrappingKey carrier generation profileDigest later mode v =
      (Inspection.inspect checkpoint wrappingKey carrier generation profileDigest now mode v).map
        fun i => { i with expired := decide (carrier.relayExpiresAt ≤ later) } := by
  unfold Inspection.inspect
  cases Bootstrap.inspectCheckpoint checkpoint wrappingKey carrier generation mode with
  | ok b =>
    dsimp only
    split_ifs <;> rfl
  | error e =>
    dsimp only
    cases inspectAllocatorEndpoint checkpoint wrappingKey carrier generation v with
    | error e' => rfl
    | ok s =>
      rw [Calls.ok_bind, Calls.ok_bind]
      cases lastFromPeer s.endpoint.last <;> rfl

omit [BodyVerifier V] [BodyVerifier W] in
theorem agreement_of_neither {x : Except Error Inspection}
    {y : Except Error (AllocatorSession W)} {e e' : Error} (hx : x = .error e)
    (hy : y = .error e') :
    ((∃ i, x = .ok i) ↔ ∃ s, y = .ok s) ∧ ∀ i s, x = .ok i → y = .ok s → i.Reports s := by
  simp only [hx, hy, reduceCtorEq, exists_false, false_implies, implies_true, and_self]

omit [BodyVerifier V] [BodyVerifier W] in
theorem agreement_of_both {x : Except Error Inspection} {y : Except Error (AllocatorSession W)}
    {i : Inspection} {s : AllocatorSession W} (hreports : i.Reports s) (hx : x = .ok i)
    (hy : y = .ok s) :
    ((∃ i, x = .ok i) ↔ ∃ s, y = .ok s) ∧ ∀ i s, x = .ok i → y = .ok s → i.Reports s := by
  subst hx hy
  refine ⟨⟨fun _ => ⟨s, rfl⟩, fun _ => ⟨i, rfl⟩⟩, ?_⟩
  rintro _ _ ⟨⟩ ⟨⟩
  exact hreports

end Agreement

/-- Inspection agrees with a restore before the expiry; from then on no restore succeeds,
and inspection reports what it reported before, as expired. -/
theorem inspect_agrees {v : V} {w : W} (h : Interchangeable v w) (checkpoint : Bytes)
    (wrappingKey : Octets 32) (carrier : Carrier) (generation : UInt64)
    (profileDigest scalar : Octets 32) (mode : AllocatorMode) (now : UInt64) :
    (now < carrier.relayExpiresAt →
      ((∃ i, Inspection.inspect checkpoint wrappingKey carrier generation profileDigest now mode
          v = .ok i) ↔
        ∃ s, AllocatorSession.restore checkpoint wrappingKey carrier generation profileDigest now
          mode scalar w = .ok s) ∧
      ∀ i s, Inspection.inspect checkpoint wrappingKey carrier generation profileDigest now mode
          v = .ok i →
        AllocatorSession.restore checkpoint wrappingKey carrier generation profileDigest now mode
          scalar w = .ok s → i.Reports s) ∧
    (carrier.relayExpiresAt ≤ now →
      (∃ e, AllocatorSession.restore checkpoint wrappingKey carrier generation profileDigest now
        mode scalar w = .error e) ∧
      ∀ earlier < carrier.relayExpiresAt,
        Inspection.inspect checkpoint wrappingKey carrier generation profileDigest now mode v =
          (Inspection.inspect checkpoint wrappingKey carrier generation profileDigest earlier mode
            v).map fun i => { i with expired := true }) := by
  constructor
  · intro hlater
    cases hb : Bootstrap.inspectCheckpoint checkpoint wrappingKey carrier generation mode with
    | ok b =>
      obtain ⟨-, hinspect, hrestore⟩ | ⟨i, s, hreports, hinspect, hrestore⟩ :=
        bootstrap_agrees profileDigest scalar v w hlater hb
      · exact agreement_of_neither hinspect hrestore
      · exact agreement_of_both hreports hinspect hrestore
    | error e =>
      obtain ⟨_, _, hinspect, hrestore⟩ | ⟨i, s, hreports, hinspect, hrestore⟩ :=
        endpoint_agrees profileDigest scalar h hlater hb
      · exact agreement_of_neither hinspect hrestore
      · exact agreement_of_both hreports hinspect hrestore
  · intro hexpired
    refine ⟨restore_expired profileDigest scalar hexpired, ?_⟩
    intro earlier _
    rw [inspect_clock profileDigest now, decide_eq_true hexpired]

end CredentialV2

namespace CredentialV2
open Codec Calls

attribute [local instance] Primitives.transparent

def Bootstrap.sample : Bootstrap :=
  value (Bootstrap.new .sample ⟨fill 16 [4], some (fill 16 [5])⟩ (fill 32 [7])
    (RelayState.new (fill 32 [9])) .full) (by decide +kernel)

def Bootstrap.sampleCheckpoint : Bytes :=
  value (Call.verdict (Bootstrap.sealCheckpoint (fill 32 [8]) 1 (fill 12 [1]) 50 .sample))
    (by decide +kernel)

/-- At time 60 the sample checkpoint is accepted by both. -/
theorem inspect_agrees_sample :
    (∃ i, Inspection.inspect Bootstrap.sampleCheckpoint (fill 32 [8]) .sample 1 (fill 32 [7]) 60
      .full () = .ok i) ∧
    ∃ s : AllocatorSession Unit, AllocatorSession.restore Bootstrap.sampleCheckpoint (fill 32 [8])
      .sample 1 (fill 32 [7]) 60 .full (fill 32 [6]) () = .ok s := by
  have hagrees := ((inspect_agrees (v := ()) (w := ()) (fun _ => rfl) Bootstrap.sampleCheckpoint
    (fill 32 [8]) .sample 1 (fill 32 [7]) (fill 32 [6]) .full 60).1 (by decide +kernel)).1
  have hrestored : (AllocatorSession.restore Bootstrap.sampleCheckpoint (fill 32 [8]) .sample 1
      (fill 32 [7]) 60 .full (fill 32 [6]) ()).isOk = true := by decide +kernel
  have hsome := eq_ok_value _ hrestored
  exact ⟨hagrees.mpr ⟨_, hsome⟩, _, hsome⟩

end CredentialV2
end CbclPairing
