import CbclPairing.CredentialV2.AllocatorProgress
import CbclPairing.CredentialV2.ClaimantOrder

/-! The acknowledgement of the allocator's Finished value and the claimant's may arrive in
either order. -/
namespace CbclPairing
namespace CredentialV2
open Codec Codec.Cbor Calls

variable [Primitives] {V : Type}

/-! ### Room for a bootstrap checkpoint -/

omit [Primitives] in
theorem CpaceMessage.nested_size_le {m : CpaceMessage} (h : m.admissible = true) :
    size m.nested ≤ 296 := by
  simp only [CpaceMessage.admissible, Bool.and_eq_true, decide_eq_true_eq] at h
  have hside : size (.integer (sideNumber m.side)) = 1 := by cases m.side <;> rfl
  have htwo : size (.integer 2) = 1 := rfl
  have hhead := headSize_le h.2
  have h256 : headSize 256 = 3 := rfl
  have h32 : headSize 32 = 2 := rfl
  have h4 : headSize 4 = 1 := rfl
  rw [CpaceMessage.nested, size_array]
  simp only [List.map_cons, List.map_nil, List.sum_cons, List.sum_nil, size_bytes, hside, htwo,
    Octets.length_val, List.length_cons, List.length_nil, h32, h4, zero_add, Nat.reduceAdd]
  omega

omit [Primitives] in
/-- The octets of a CPace or Finished frame. -/
theorem Frame.bootstrap_length {f : Frame} (hsealed : f.isSealed = false)
    (h : f.admissible = true) : 0 < (toCanonicalVec (.map f.entries)).length ∧
      (toCanonicalVec (.map f.entries)).length ≤ 512 := by
  have hkeys : [size (.text (ascii "v")), size (.text (ascii "kind")), size (.text (ascii "cpace")),
      size (.text (ascii "role")), size (.text (ascii "message")), size (.text (ascii "finished")),
      size (.text (ascii "value")), size (.integer 2)] = [2, 5, 6, 5, 8, 9, 6, 1] := by decide
  simp only [List.cons.injEq, and_true] at hkeys
  obtain ⟨hv, hkind, hcpace, hrole, hmessage, hfinished, hvalue, htwo⟩ := hkeys
  have h4 : headSize 4 = 1 := rfl
  have hside : ∀ side : Side, size (.integer (sideNumber side)) = 1 := by
    intro side
    cases side <;> rfl
  rw [toCanonicalVec_length, size_map]
  cases f with
  | cpace m =>
    have hnested := CpaceMessage.nested_size_le h
    have hhead := headSize_le hnested
    have h296 : headSize 296 = 3 := rfl
    simp only [Frame.entries, List.map_cons, List.map_nil, List.sum_cons, List.sum_nil, hv, hkind,
      hcpace, hrole, hmessage, htwo, hside, size_bytes, toCanonicalVec_length, List.length_cons,
      List.length_nil, zero_add, Nat.reduceAdd, h4]
    omega
  | finished side value =>
    have h64 : headSize 64 = 2 := rfl
    simp only [Frame.entries, List.map_cons, List.map_nil, List.sum_cons, List.sum_nil, hv, hkind,
      hfinished, hrole, hvalue, htwo, hside, size_bytes, Octets.length_val, List.length_cons,
      List.length_nil, zero_add, Nat.reduceAdd, h4, h64]
    omega
  | sealed => cases hsealed

namespace Bootstrap

omit [Primitives] in
/-- A frame of the kind a phase asks for is stored in few octets. -/
theorem appendOptionalFrame_ok (frame : Option Frame) (hplain : ∀ f ∈ frame, f.isSealed = false)
    (hadmissible : ∀ f ∈ frame, f.admissible = true) :
    ∃ bytes, appendOptionalFrame frame = .ok bytes ∧ bytes.length ≤ 517 := by
  cases frame with
  | none => exact ⟨[0], rfl, by simp⟩
  | some f =>
    have hframe := hadmissible f rfl
    obtain ⟨hpos, hlength⟩ := f.bootstrap_length (hplain f rfl) hframe
    have happend : appendBytes (toCanonicalVec (.map f.entries)) = .ok
        (beBytes 4 (toCanonicalVec (.map f.entries)).length ++ toCanonicalVec (.map f.entries)) :=
      appendBytes_eq_ok.mpr ⟨by omega, rfl⟩
    have hbounded : ¬(toCanonicalVec (.map f.entries) = [] ∨
        maxFrameBytes < (toCanonicalVec (.map f.entries)).length) := by
      rw [not_or]
      exact ⟨List.ne_nil_of_length_pos hpos, by unfold maxFrameBytes; omega⟩
    refine ⟨_, by rw [appendOptionalFrame, Frame.encodeFrame_ok hframe, Calls.ok_bind,
      appendBounded, if_neg hbounded, happend, Calls.ok_bind], ?_⟩
    simp only [List.length_cons, List.length_append, beBytes_length]
    omega

omit [Primitives] in
theorem cpaceFrom_plain {side : Side} {f : Frame} (h : cpaceFrom side f = true) :
    f.isSealed = false := by
  cases f with
  | cpace => rfl
  | finished => rfl
  | sealed => cases h

omit [Primitives] in
theorem finishedFrom_plain {side : Side} {f : Frame} (h : finishedFrom side f = true) :
    f.isSealed = false ∧ f.admissible = true := by
  cases f with
  | finished => exact ⟨rfl, rfl⟩
  | cpace => cases h
  | sealed => cases h

/-- A bootstrap that waits for the peer's Finished value can always be stored, unless
its projection or its retained share is not in order. -/
theorem encodeInner_finishedSent {b : Bootstrap} (hphase : b.phase = .finishedSent)
    (generation : UInt64) (nonce : Octets 12) :
    (∃ plaintext, b.encodeInner generation nonce = .ok plaintext) ↔
      b.projectionIsConsistent = true ∧ ∀ f ∈ b.peerCpace, f.admissible = true := by
  unfold encodeInner
  by_cases hconsistent : b.projectionIsConsistent = true
  swap
  · simp [hconsistent]
  rw [if_neg (by simpa using hconsistent)]
  constructor
  · rintro ⟨plaintext, h⟩
    simp only [Calls.except_bind_eq_ok] at h
    obtain ⟨_, -, _, hpeer, -⟩ := h
    refine ⟨hconsistent, ?_⟩
    intro f hf
    rw [hf] at hpeer
    simp only [appendOptionalFrame, Calls.except_bind_eq_ok] at hpeer
    obtain ⟨_, hencode, -⟩ := hpeer
    exact (Frame.encodeFrame_eq_ok.mp hencode).1
  · rintro ⟨-, hadmissible⟩
    have hparts := hconsistent
    simp only [projectionIsConsistent, hphase, Bool.and_eq_true, Option.any_eq_true,
      Option.all_eq_true] at hparts
    obtain ⟨-, ⟨⟨⟨-, -⟩, share, hshare, hpeer⟩, own, hown, hcached⟩, hfinished⟩ := hparts
    have hcarrier : appendBounded (encodeCarrier b.carrier) =
        .ok (beBytes 4 (encodeCarrier b.carrier).length ++ encodeCarrier b.carrier) := by
      have hle := Carrier.encodeCarrier_length_le b.carrier
      have hpos := Carrier.encodeCarrier_pos b.carrier
      have hbounded : ¬(encodeCarrier b.carrier = [] ∨
          maxFrameBytes < (encodeCarrier b.carrier).length) := by
        rw [not_or]
        exact ⟨List.ne_nil_of_length_pos hpos, by unfold maxFrameBytes; omega⟩
      rw [appendBounded, if_neg hbounded]
      exact appendBytes_eq_ok.mpr ⟨by omega, rfl⟩
    have hplain : ∀ f ∈ b.peerCpace, f.isSealed = false := by
      rw [hshare]
      rintro _ ⟨⟩
      exact cpaceFrom_plain hpeer
    have hfinishedPlain : ∀ f ∈ b.peerFinished, f.isSealed = false ∧ f.admissible = true :=
      fun f hf => finishedFrom_plain (hfinished f hf)
    have hcachedPlain : ∀ f ∈ b.cachedOutbound, f.isSealed = false ∧ f.admissible = true := by
      rw [hown]
      rintro _ ⟨⟩
      exact finishedFrom_plain hcached
    obtain ⟨peerBytes, hpeerBytes, hpeerLength⟩ :=
      appendOptionalFrame_ok b.peerCpace hplain hadmissible
    obtain ⟨finishedBytes, hfinishedBytes, hfinishedLength⟩ := appendOptionalFrame_ok b.peerFinished
      (fun f hf => (hfinishedPlain f hf).1) fun f hf => (hfinishedPlain f hf).2
    obtain ⟨cachedBytes, hcachedBytes, hcachedLength⟩ := appendOptionalFrame_ok b.cachedOutbound
      (fun f hf => (hcachedPlain f hf).1) fun f hf => (hcachedPlain f hf).2
    have hclaim : (optional Subtype.val b.presence.claimToken).length ≤ 17 := by
      cases b.presence.claimToken <;> simp [optional]
    have hscalar : (optional Subtype.val b.freshScalar).length ≤ 33 := by
      cases b.freshScalar <;> simp [optional]
    have hdomain : domain.length = 35 := by decide
    have hle := Carrier.encodeCarrier_length_le b.carrier
    rw [hcarrier, Calls.ok_bind, hpeerBytes, Calls.ok_bind, hfinishedBytes, Calls.ok_bind,
      hcachedBytes, Calls.ok_bind]
    refine ⟨_, if_neg ?_⟩
    simp only [List.length_append, List.length_cons, List.length_nil, Octets.length_val,
      beBytes_length, hdomain, maxInner, maxCiphertext]
    omega

/-- What the next checkpoint of a waiting bootstrap asks for, its time apart. -/
def Stampable (b : Bootstrap) (nonce : Octets 12) : Prop :=
  (saturatingSucc b.checkpointGeneration ≠ 0 ∧ b.checkpointNonce ≠ some nonce) ∧
    b.projectionIsConsistent = true ∧ ∀ f ∈ b.peerCpace, f.admissible = true

theorem sealCheckpoint_finishedSent (key : Octets 32) {b : Bootstrap} {now : UInt64}
    {nonce : Octets 12} (hphase : b.phase = .finishedSent) :
    (∃ checkpoint, sealCheckpoint key (saturatingSucc b.checkpointGeneration) nonce now b =
        .ok checkpoint (b.stamped (saturatingSucc b.checkpointGeneration) nonce)) ↔
      now < b.carrier.relayExpiresAt ∧ b.Stampable nonce := by
  rw [Stampable, ← encodeInner_finishedSent hphase (saturatingSucc b.checkpointGeneration) nonce]
  constructor
  · rintro ⟨checkpoint, h⟩
    obtain ⟨hlive, ⟨hzero, -, hnonce⟩, ⟨plaintext, hencode, -⟩, -⟩ := sealCheckpoint_eq_ok.mp h
    exact ⟨hlive, ⟨hzero, hnonce⟩, plaintext, hencode⟩
  · rintro ⟨hlive, ⟨hzero, hnonce⟩, plaintext, hencode⟩
    have hsize : plaintext ≠ [] ∧ plaintext.length ≤ maxInner := by
      unfold encodeInner at hencode
      split_ifs at hencode
      simp only [Calls.except_bind_eq_ok] at hencode
      obtain ⟨_, -, _, -, _, -, _, -, h⟩ := hencode
      split_ifs at h with hlength
      obtain rfl := Except.ok.inj h
      exact ⟨by simp, not_lt.mp hlength⟩
    obtain ⟨checkpoint, hseal⟩ := sealCheckpointPlaintext_ok .allocator b.carrier key
      (saturatingSucc b.checkpointGeneration) (some b.carrier.relayExpiresAt) nonce hsize.1 hsize.2
    exact ⟨checkpoint, sealCheckpoint_eq_ok.mpr
      ⟨hlive, ⟨hzero, rfl, hnonce⟩, ⟨plaintext, hencode, hseal⟩, rfl⟩⟩

/-- The peer's Finished value and the relay projection do not stand in the way of a
checkpoint. -/
theorem stampable_moved {b : Bootstrap} {nonce : Octets 12} (hphase : b.phase = .finishedSent)
    (hnone : b.peerFinished = none) {relay : RelayState} {finished : Option Frame}
    (hfinished : finished.all (finishedFrom .claimant) = true) :
    ({ b with relay, peerFinished := finished } : Bootstrap).Stampable nonce ↔
      b.Stampable nonce := by
  unfold Stampable projectionIsConsistent
  simp only [hphase, hnone, hfinished, Option.all_none]

end Bootstrap

/-! ### The allocator -/

namespace AllocatorSession

variable [BodyVerifier V] {s s' : AllocatorSession V} {b : Bootstrap}
  {sequence peerSeq : UInt8} {body : Bytes} {now : UInt64} {nonce : Octets 12}
  {effects after : List AllocatorEffect}

omit [BodyVerifier V] in
theorem checkpointBootstrap_iff (hstate : s.state = .bootstrap b) :
    checkpointBootstrap now nonce after s = .ok effects s' ↔
      s.Idle ∧ ∃ checkpoint, Bootstrap.sealCheckpoint s.wrappingKey
          (saturatingSucc b.checkpointGeneration) nonce now b =
          .ok checkpoint (b.stamped (saturatingSucc b.checkpointGeneration) nonce) ∧
        effects = [.checkpoint (saturatingSucc b.checkpointGeneration) checkpoint
          (encodeCarrier b.carrier)] ∧
        s' = { s with
          state := .bootstrap (b.stamped (saturatingSucc b.checkpointGeneration) nonce)
          persistenceGate := some (saturatingSucc b.checkpointGeneration)
          afterPersist := after } := by
  simp only [checkpointBootstrap, Call.bind_eq_ok, Call.get_eq_ok, Call.orThrow_eq_ok,
    bootstrap?_eq_some, onBootstrap_eq_ok, gate_eq_ok]
  constructor
  · rintro ⟨_, _, ⟨rfl, rfl⟩, _, _, ⟨hstate', rfl⟩, checkpoint, _, ⟨b₁, b', hstate₁, hseal, rfl⟩,
      hgate, hempty, rfl, rfl⟩
    obtain rfl := AllocatorState.bootstrap.inj (hstate.symm.trans hstate')
    obtain rfl := AllocatorState.bootstrap.inj (hstate.symm.trans hstate₁)
    obtain ⟨-, -, -, rfl⟩ := Bootstrap.sealCheckpoint_eq_ok.mp hseal
    exact ⟨⟨hgate, hempty⟩, checkpoint, hseal, rfl, rfl⟩
  · rintro ⟨hidle, checkpoint, hseal, rfl, rfl⟩
    exact ⟨s, s, ⟨rfl, rfl⟩, b, s, ⟨hstate, rfl⟩, checkpoint, _, ⟨b, _, hstate, hseal, rfl⟩,
      hidle.ungated, hidle.empty, rfl, rfl⟩

/-- The endpoint that takes over from a bootstrap. -/
def successor (b : Bootstrap) (v : V) : Endpoint V :=
  { Endpoint.new .allocator b.carrier v with
    checkpointGeneration := b.checkpointGeneration, checkpointNonce := b.checkpointNonce }

theorem establish_iff {ack : Option AllocatorEffect} (hstate : s.state = .bootstrap b) :
    establish now nonce ack s = .ok effects s' ↔ s.Idle ∧
      ∃ frame channel v checkpoint endpoint, b.peerFinished = some frame ∧
        b.confirm frame = .ok (channel, b.relay) ∧ b.relay.awaitingAck = false ∧
        s.bodyVerifier = some v ∧
        Endpoint.sealCheckpoint channel b.relay s.wrappingKey
          (saturatingSucc b.checkpointGeneration) (some b.carrier.relayExpiresAt) nonce now
          (successor b v) = .ok checkpoint endpoint ∧
        effects = [.checkpoint (saturatingSucc b.checkpointGeneration) checkpoint
          (encodeCarrier b.carrier)] ∧
        s' = { s with
          bodyVerifier := none, state := .established ⟨endpoint, channel, b.relay⟩
          persistenceGate := some (saturatingSucc b.checkpointGeneration)
          afterPersist := ack.toList ++ [.established channel.transcriptHash] } := by
  simp only [establish, Call.bind_eq_ok, Call.get_eq_ok, Call.set_eq_ok, Call.orThrow_eq_ok,
    Call.ofExcept_eq_ok, bootstrap?_eq_some, Call.guard_eq_ok, Prod.exists, Call.modify_eq_ok]
  constructor
  · rintro ⟨_, _, ⟨rfl, rfl⟩, _, _, rfl, _, _, ⟨hstate', rfl⟩, frame, _, ⟨hframe, rfl⟩, channel,
      relay, _, ⟨hconfirm, rfl⟩, hawait, v, _, ⟨hverifier, rfl⟩, _, _, rfl, h⟩
    obtain rfl := AllocatorState.bootstrap.inj (hstate.symm.trans hstate')
    obtain ⟨-, rfl, -⟩ := Bootstrap.confirm_eq_ok.mp hconfirm
    cases hseal : Endpoint.sealCheckpoint channel b.relay s.wrappingKey
      (saturatingSucc b.checkpointGeneration) (some b.carrier.relayExpiresAt) nonce now
      (successor b v) with
    | error e endpoint =>
      rw [successor] at hseal
      simp [hseal] at h
    | ok checkpoint endpoint =>
      have hsealed := hseal
      rw [successor] at hsealed
      simp only [hsealed, Call.bind_eq_ok, Call.modify_eq_ok, gate_eq_ok] at h
      obtain ⟨_, _, rfl, hgate, hempty, rfl, rfl⟩ := h
      exact ⟨⟨hgate, hempty⟩, frame, channel, v, checkpoint, endpoint, hframe, hconfirm,
        by simpa using hawait, hverifier, hseal, rfl, rfl⟩
  · rintro ⟨hidle, frame, channel, v, checkpoint, endpoint, hframe, hconfirm, hawait, hverifier,
      hseal, rfl, rfl⟩
    refine ⟨s, s, ⟨rfl, rfl⟩, ⟨⟩, _, rfl, b, _, ⟨hstate, rfl⟩, frame, _, ⟨hframe, rfl⟩, channel,
      b.relay, _, ⟨hconfirm, rfl⟩, by simpa using hawait, v, _, ⟨hverifier, rfl⟩, ⟨⟩, _, rfl, ?_⟩
    have hseal' : Endpoint.sealCheckpoint channel b.relay s.wrappingKey
        (saturatingSucc b.checkpointGeneration) (some b.carrier.relayExpiresAt) nonce now
        { Endpoint.new .allocator b.carrier v with
          checkpointGeneration := b.checkpointGeneration
          checkpointNonce := b.checkpointNonce } = .ok checkpoint endpoint := hseal
    rw [hseal']
    simp only [Call.bind_eq_ok, Call.modify_eq_ok]
    exact ⟨⟨⟩, _, rfl, gate_eq_ok.mpr ⟨hidle.ungated, hidle.empty, rfl, rfl⟩⟩

theorem localAcknowledged_finishedSent (hstate : s.state = .bootstrap b)
    (hphase : b.phase = .finishedSent) :
    localAcknowledged sequence now nonce s = .ok effects s' ↔
      b.relay.acknowledgementAlreadyApplied sequence = true ∧ now < b.carrier.relayExpiresAt ∧
          effects = [] ∧ s' = s ∨
        b.relay.acknowledgementAlreadyApplied sequence = false ∧
        ∃ relay, RelayState.acknowledgeBootstrapFrame sequence b.relay = .ok () relay ∧
          (b.peerFinished = none ∧
              checkpointBootstrap now nonce [] { s with state := .bootstrap { b with relay } } =
                .ok effects s' ∨
            b.peerFinished.isSome = true ∧
              establish now nonce none { s with state := .bootstrap { b with relay } } =
                .ok effects s') := by
  unfold localAcknowledged
  rw [Call.run_bind (Call.run_get s)]
  constructor
  · intro h
    rw [hstate] at h
    dsimp only at h
    split_ifs at h with happlied
    · obtain ⟨hrepeated, rfl⟩ := Call.ofExcept_eq_ok.mp h
      obtain ⟨hlive, rfl⟩ := repeatedAcknowledgement_eq_ok.mp hrepeated
      exact .inl ⟨happlied, UInt64.not_le.mp hlive, rfl, rfl⟩
    rw [hphase] at h
    simp only [Call.bind_eq_ok, onBootstrap_eq_ok, finishedAcknowledged_eq_ok] at h
    obtain ⟨hasPeer, _, ⟨_, _, hstate', ⟨relay, hack, rfl, rfl⟩, rfl⟩, h⟩ := h
    obtain rfl := AllocatorState.bootstrap.inj (hstate.symm.trans hstate')
    refine .inr ⟨by simpa using happlied, relay, hack, ?_⟩
    split_ifs at h with hpeer
    · exact .inr ⟨hpeer, h⟩
    · exact .inl ⟨by simpa using hpeer, h⟩
  · intro h
    rw [hstate]
    dsimp only
    obtain ⟨happlied, hlive, rfl, rfl⟩ | ⟨happlied, relay, hack, h⟩ := h
    · rw [if_pos happlied, Call.ofExcept_eq_ok]
      exact ⟨repeatedAcknowledgement_eq_ok.mpr ⟨UInt64.not_le.mpr hlive, rfl⟩, rfl⟩
    rw [if_neg (by simp [happlied]), hphase]
    simp only [Call.bind_eq_ok, onBootstrap_eq_ok, finishedAcknowledged_eq_ok]
    refine ⟨_, _, ⟨b, _, hstate, ⟨relay, hack, rfl, rfl⟩, rfl⟩, ?_⟩
    obtain ⟨hnone, h⟩ | ⟨hsome, h⟩ := h
    · rw [if_neg (by simp [hnone])]
      exact h
    · rw [if_pos hsome]
      exact h

theorem peerFrame_finishedSent (hstate : s.state = .bootstrap b) (hphase : b.phase = .finishedSent)
    (hfirst : ¬(peerSeq = 0 ∧ b.peerCpace.isSome = true)) :
    peerFrame peerSeq body now nonce s = .ok effects s' ↔ ∃ frame relay ack,
      decodeFrame body = .ok frame ∧
      RelayState.acceptPeerSequence peerSeq b.relay = .ok () relay ∧
      Bootstrap.finishedFrom .claimant frame = true ∧
      (∀ retained ∈ b.peerFinished, retained = frame) ∧ ackFrame peerSeq = .ok ack ∧
      (relay.awaitingAck = true ∧ checkpointBootstrap now nonce [ack]
          { s with state := .bootstrap { b with relay, peerFinished := some frame } } =
          .ok effects s' ∨
        relay.awaitingAck = false ∧ establish now nonce (some ack)
          { s with state := .bootstrap { b with relay, peerFinished := some frame } } =
          .ok effects s') := by
  unfold peerFrame
  simp only [Call.bind_eq_ok, Call.ofExcept_eq_ok, Call.get_eq_ok]
  constructor
  · rintro ⟨frame, _, ⟨hdecode, rfl⟩, _, _, ⟨rfl, rfl⟩, h⟩
    rw [hstate] at h
    dsimp only at h
    rw [if_neg hfirst, hphase] at h
    simp only [Call.bind_eq_ok, onBootstrap_eq_ok, Call.ofExcept_eq_ok, peerFinished_eq_ok] at h
    obtain ⟨waiting, _, ⟨_, _, hstate', ⟨relay, haccept, -, hfrom, hretained, rfl, rfl⟩, rfl⟩,
      ack, _, ⟨hack, rfl⟩, h⟩ := h
    obtain rfl := AllocatorState.bootstrap.inj (hstate.symm.trans hstate')
    refine ⟨frame, relay, ack, hdecode, haccept, hfrom, hretained, hack, ?_⟩
    split_ifs at h with hwaiting
    · exact .inl ⟨hwaiting, h⟩
    · exact .inr ⟨by simpa using hwaiting, h⟩
  · rintro ⟨frame, relay, ack, hdecode, haccept, hfrom, hretained, hack, h⟩
    refine ⟨frame, s, ⟨hdecode, rfl⟩, s, s, ⟨rfl, rfl⟩, ?_⟩
    rw [hstate]
    dsimp only
    rw [if_neg hfirst, hphase]
    simp only [Call.bind_eq_ok, onBootstrap_eq_ok, Call.ofExcept_eq_ok, peerFinished_eq_ok]
    refine ⟨_, _, ⟨b, _, hstate, ⟨relay, haccept, hphase, hfrom, hretained, rfl, rfl⟩, rfl⟩, ack, _,
      ⟨hack, rfl⟩, ?_⟩
    obtain ⟨hwaiting, h⟩ | ⟨hwaiting, h⟩ := h
    · rw [if_pos hwaiting]
      exact h
    · rw [if_neg (by simp [hwaiting])]
      exact h

/-! ### A host that stores every checkpoint -/

omit [BodyVerifier V] in
/-- A host that stores the checkpoint of a call before it does anything else. -/
def confirm (effects : List AllocatorEffect) :
    Call Error (AllocatorSession V) (List AllocatorEffect) :=
  match effects with
  | [.checkpoint generation _ _] => checkpointPersisted generation
  | _ => pure effects

def receiveStored (input : ServerInput) (now : UInt64) (nonce : Octets 12) :
    Call Error (AllocatorSession V) (List AllocatorEffect) := do
  let effects ← receive input now nonce
  confirm effects

/-- Two relay messages one after the other, with what they release. -/
def receiveBoth (first second : ServerInput) (now later : UInt64) (nonce nonce' : Octets 12) :
    Call Error (AllocatorSession V) (List AllocatorEffect) := do
  let before ← receiveStored first now nonce
  let after ← receiveStored second later nonce'
  pure (before ++ after)

/-- The session in another state, with nothing held back. -/
def settled (s : AllocatorSession V) (state : AllocatorState V) : AllocatorSession V :=
  { s with state, persistenceGate := none, afterPersist := [] }

variable {released : List AllocatorEffect}

theorem receiveStored_eq_ok {message : {m : ServerMessage // m.recognised = true}} :
    receiveStored (.ok message) now nonce s = .ok released s' ↔ s.persistenceGate = none ∧
      ∃ effects s₁, applyServer message.val now nonce s = .ok effects s₁ ∧
        confirm effects s₁ = .ok released s' := by
  simp only [receiveStored, receive, Call.bind_eq_ok, Call.get_eq_ok, Call.guard_eq_ok,
    guarded_eq_ok, Bool.not_eq_true, Option.isSome_eq_false_iff, Option.isNone_iff_eq_none]
  constructor
  · rintro ⟨effects, s₁, ⟨_, _, ⟨rfl, rfl⟩, hgate, h⟩, hconfirm⟩
    exact ⟨hgate, effects, s₁, h, hconfirm⟩
  · rintro ⟨hgate, effects, s₁, h, hconfirm⟩
    exact ⟨effects, s₁, ⟨s, s, ⟨rfl, rfl⟩, hgate, h⟩, hconfirm⟩

omit [BodyVerifier V] in
theorem checkpointBootstrap_stored (hstate : s.state = .bootstrap b)
    (hphase : b.phase = .finishedSent) :
    (∃ effects s₁, checkpointBootstrap now nonce after s = .ok effects s₁ ∧
      confirm effects s₁ = .ok released s') ↔ s.Idle ∧ now < b.carrier.relayExpiresAt ∧
        b.Stampable nonce ∧ released = after ∧
        s' = s.settled (.bootstrap (b.stamped (saturatingSucc b.checkpointGeneration) nonce)) := by
  simp only [checkpointBootstrap_iff hstate]
  have hseals : (∃ checkpoint, Bootstrap.sealCheckpoint s.wrappingKey
      (saturatingSucc b.checkpointGeneration) nonce now b =
      .ok checkpoint (b.stamped (saturatingSucc b.checkpointGeneration) nonce)) ↔
      now < b.carrier.relayExpiresAt ∧ b.Stampable nonce :=
    Bootstrap.sealCheckpoint_finishedSent s.wrappingKey hphase
  constructor
  · rintro ⟨_, _, ⟨hidle, checkpoint, hseal, rfl, rfl⟩, hconfirm⟩
    obtain ⟨-, rfl, rfl⟩ := checkpointPersisted_eq_ok.mp hconfirm
    obtain ⟨hlive, hstampable⟩ := hseals.mp ⟨checkpoint, hseal⟩
    exact ⟨hidle, hlive, hstampable, rfl, rfl⟩
  · rintro ⟨hidle, hlive, hstampable, rfl, rfl⟩
    obtain ⟨checkpoint, hseal⟩ := hseals.mpr ⟨hlive, hstampable⟩
    exact ⟨_, _, ⟨hidle, checkpoint, hseal, rfl, rfl⟩,
      checkpointPersisted_eq_ok.mpr ⟨rfl, rfl, rfl⟩⟩

/-- The channel is confirmed and the endpoint stored, and the session opened. -/
def Finishes (s : AllocatorSession V) (b : Bootstrap) (ack : Option AllocatorEffect)
    (now : UInt64) (nonce : Octets 12) (released : List AllocatorEffect)
    (s' : AllocatorSession V) : Prop :=
  ∃ frame channel v checkpoint endpoint, b.peerFinished = some frame ∧
    b.confirm frame = .ok (channel, b.relay) ∧ b.relay.awaitingAck = false ∧
    s.bodyVerifier = some v ∧
    Endpoint.sealCheckpoint channel b.relay s.wrappingKey (saturatingSucc b.checkpointGeneration)
      (some b.carrier.relayExpiresAt) nonce now (successor b v) = .ok checkpoint endpoint ∧
    released = ack.toList ++ [.established channel.transcriptHash] ∧
    s' = { s.settled (.established ⟨endpoint, channel, b.relay⟩) with bodyVerifier := none }

theorem establish_stored {ack : Option AllocatorEffect} (hstate : s.state = .bootstrap b) :
    (∃ effects s₁, establish now nonce ack s = .ok effects s₁ ∧
      confirm effects s₁ = .ok released s') ↔ s.Idle ∧ Finishes s b ack now nonce released s' := by
  simp only [establish_iff hstate]
  constructor
  · rintro ⟨_, _, ⟨hidle, frame, channel, v, checkpoint, endpoint, hframe, hconfirm, hawait,
      hverifier, hseal, rfl, rfl⟩, hstored⟩
    obtain ⟨-, rfl, rfl⟩ := checkpointPersisted_eq_ok.mp hstored
    exact ⟨hidle, frame, channel, v, checkpoint, endpoint, hframe, hconfirm, hawait, hverifier,
      hseal, rfl, rfl⟩
  · rintro ⟨hidle, frame, channel, v, checkpoint, endpoint, hframe, hconfirm, hawait, hverifier,
      hseal, rfl, rfl⟩
    exact ⟨_, _, ⟨hidle, frame, channel, v, checkpoint, endpoint, hframe, hconfirm, hawait,
      hverifier, hseal, rfl, rfl⟩, checkpointPersisted_eq_ok.mpr ⟨rfl, rfl, rfl⟩⟩

theorem finishes_some {ack : AllocatorEffect} : Finishes s b (some ack) now nonce released s' ↔
    ∃ more, Finishes s b none now nonce more s' ∧ released = ack :: more := by
  constructor
  · rintro ⟨frame, channel, v, checkpoint, endpoint, hframe, hconfirm, hawait, hverifier, hseal,
      rfl, rfl⟩
    exact ⟨_, ⟨frame, channel, v, checkpoint, endpoint, hframe, hconfirm, hawait, hverifier, hseal,
      rfl, rfl⟩, rfl⟩
  · rintro ⟨_, ⟨frame, channel, v, checkpoint, endpoint, hframe, hconfirm, hawait, hverifier, hseal,
      rfl, rfl⟩, rfl⟩
    exact ⟨frame, channel, v, checkpoint, endpoint, hframe, hconfirm, hawait, hverifier, hseal, rfl,
      rfl⟩

/-- Before the expiry the time of the last checkpoint is not to be seen. -/
theorem Finishes.later {ack : Option AllocatorEffect}
    (h : Finishes s b ack now nonce released s') {later : UInt64}
    (hlive : later < b.carrier.relayExpiresAt) : Finishes s b ack later nonce released s' := by
  obtain ⟨frame, channel, v, checkpoint, endpoint, hframe, hconfirm, hawait, hverifier, hseal,
    hreleased, hs'⟩ := h
  obtain ⟨hside, hphase, hcounters, hplaintext, hstamped⟩ := Endpoint.sealCheckpoint_eq_ok.mp hseal
  have hlater : ∀ value ∈ some b.carrier.relayExpiresAt, later < value := by
    rintro _ ⟨⟩
    exact hlive
  exact ⟨frame, channel, v, checkpoint, endpoint, hframe, hconfirm, hawait, hverifier,
    Endpoint.sealCheckpoint_eq_ok.mpr ⟨hside, validateCheckpointPhase_later hphase hlater,
      hcounters, hplaintext, hstamped⟩, hreleased, hs'⟩

omit [BodyVerifier V] in
theorem confirm_ungated (hgate : s.persistenceGate = none)
    (h : confirm effects s = .ok released s') : s' = s := by
  unfold confirm at h
  split at h
  · cases hgate.symm.trans (checkpointPersisted_eq_ok.mp h).1
  · exact (Call.pure_eq_ok.mp h).2.symm

/-- A share that comes again moves nothing. -/
theorem peerFrame_repeated (hstate : s.state = .bootstrap b)
    (hagain : peerSeq = 0 ∧ b.peerCpace.isSome = true)
    (h : peerFrame peerSeq body now nonce s = .ok effects s') : s' = s := by
  simp only [peerFrame, Call.bind_eq_ok, Call.get_eq_ok, Call.ofExcept_eq_ok] at h
  obtain ⟨frame, _, ⟨-, rfl⟩, _, _, ⟨rfl, rfl⟩, h⟩ := h
  rw [hstate] at h
  dsimp only at h
  rw [if_pos hagain, Call.ofExcept_eq_ok] at h
  exact h.2.symm

/-- The bootstrap after a checkpoint with its own frame acknowledged. -/
def acknowledgedAlone (b : Bootstrap) (nonce : Octets 12) : Bootstrap :=
  ({ b with relay := { b.relay with awaitingAck := false } } : Bootstrap).stamped
    (saturatingSucc b.checkpointGeneration) nonce

/-- The bootstrap after a checkpoint with the peer's Finished value retained. -/
def finishedAlone (b : Bootstrap) (frame : Frame) (next : UInt8) (nonce : Octets 12) : Bootstrap :=
  ({ b with
    relay := { b.relay with nextPeerSequence := next }, peerFinished := some frame } :
    Bootstrap).stamped (saturatingSucc b.checkpointGeneration) nonce

/-- The bootstrap with the acknowledgement and the peer's Finished value both taken, and
one checkpoint stored in between. -/
def bothTaken (b : Bootstrap) (frame : Frame) (next : UInt8) (nonce : Octets 12) : Bootstrap :=
  { b with
    relay := { b.relay with nextPeerSequence := next, awaitingAck := false }
    peerFinished := some frame, checkpointGeneration := saturatingSucc b.checkpointGeneration
    checkpointNonce := some nonce }

/-- An acknowledgement and the peer's Finished value have opened the session. -/
def Joined (s : AllocatorSession V) (b : Bootstrap) (sequence peerSeq : UInt8) (body : Bytes)
    (later : UInt64) (nonce nonce' : Octets 12) (released : List AllocatorEffect)
    (s' : AllocatorSession V) : Prop :=
  s.Idle ∧ b.Stampable nonce ∧ ∃ frame next ack, decodeFrame body = .ok frame ∧
    (peerSeq = b.relay.nextPeerSequence ∧ checkedSucc peerSeq = some next ∧
      ¬(peerSeq = 0 ∧ b.peerCpace.isSome = true)) ∧
    Bootstrap.finishedFrom .claimant frame = true ∧ ackFrame peerSeq = .ok ack ∧
    (b.relay.acknowledgementAlreadyApplied sequence = false ∧
      checkedPred b.relay.nextLocalSequence = some sequence ∧ b.relay.cachedOutbound = none) ∧
    Finishes s (bothTaken b frame next nonce) (some ack) later nonce' released s'

theorem acknowledged_stored (hack : (ServerMessage.acknowledged sequence).recognised = true)
    (hstate : s.state = .bootstrap b) (hphase : b.phase = .finishedSent) :
    receiveStored (.ok ⟨_, hack⟩) now nonce s = .ok released s' ↔ s.persistenceGate = none ∧
      (b.relay.acknowledgementAlreadyApplied sequence = true ∧ now < b.carrier.relayExpiresAt ∧
          released = [] ∧ s' = s ∨
        b.relay.acknowledgementAlreadyApplied sequence = false ∧
        ∃ relay, RelayState.acknowledgeBootstrapFrame sequence b.relay = .ok () relay ∧ s.Idle ∧
          (b.peerFinished = none ∧ now < b.carrier.relayExpiresAt ∧
              ({ b with relay } : Bootstrap).Stampable nonce ∧ released = [] ∧
              s' = s.settled (.bootstrap (({ b with relay } : Bootstrap).stamped
                (saturatingSucc b.checkpointGeneration) nonce)) ∨
            b.peerFinished.isSome = true ∧
              Finishes s { b with relay } none now nonce released s')) := by
  rw [receiveStored_eq_ok]
  refine and_congr_right fun hgate => ?_
  have happly : ∀ effects s₁,
      applyServer (.acknowledged sequence) now nonce s = .ok effects s₁ ↔ _ :=
    fun effects s₁ => localAcknowledged_finishedSent hstate hphase
  have hcheckpoint : ∀ relay : RelayState,
      (∃ effects s₁,
        checkpointBootstrap now nonce [] { s with state := .bootstrap { b with relay } } =
          .ok effects s₁ ∧ confirm effects s₁ = .ok released s') ↔ _ :=
    fun relay => checkpointBootstrap_stored rfl hphase
  have hestablish : ∀ relay : RelayState,
      (∃ effects s₁, establish now nonce none { s with state := .bootstrap { b with relay } } =
        .ok effects s₁ ∧ confirm effects s₁ = .ok released s') ↔ _ :=
    fun relay => establish_stored rfl
  constructor
  · rintro ⟨effects, s₁, hlocal, hconfirm⟩
    obtain ⟨happlied, hlive, rfl, rfl⟩ | ⟨happlied, relay, hrelay, ⟨hnone, h⟩ | ⟨hsome, h⟩⟩ :=
      (happly _ _).mp hlocal
    · obtain ⟨rfl, rfl⟩ := Call.pure_eq_ok.mp hconfirm
      exact .inl ⟨happlied, hlive, rfl, rfl⟩
    · obtain ⟨hidle, hlive, hstampable, rfl, rfl⟩ := (hcheckpoint relay).mp ⟨_, _, h, hconfirm⟩
      exact .inr ⟨happlied, relay, hrelay, ⟨hidle.ungated, hidle.empty⟩,
        .inl ⟨hnone, hlive, hstampable, rfl, rfl⟩⟩
    · obtain ⟨hidle, hfinishes⟩ := (hestablish relay).mp ⟨_, _, h, hconfirm⟩
      exact .inr ⟨happlied, relay, hrelay, ⟨hidle.ungated, hidle.empty⟩, .inr ⟨hsome, hfinishes⟩⟩
  · rintro (⟨happlied, hlive, rfl, rfl⟩ | ⟨happlied, relay, hrelay, hidle, h⟩)
    · exact ⟨[], s', (happly _ _).mpr (.inl ⟨happlied, hlive, rfl, rfl⟩),
        Call.pure_eq_ok.mpr ⟨rfl, rfl⟩⟩
    obtain ⟨hnone, hlive, hstampable, rfl, rfl⟩ | ⟨hsome, hfinishes⟩ := h
    · obtain ⟨effects, s₁, h, hconfirm⟩ := (hcheckpoint relay).mpr
        ⟨⟨hidle.ungated, hidle.empty⟩, hlive, hstampable, rfl, rfl⟩
      exact ⟨effects, s₁, (happly _ _).mpr (.inr ⟨happlied, relay, hrelay, .inl ⟨hnone, h⟩⟩),
        hconfirm⟩
    · obtain ⟨effects, s₁, h, hconfirm⟩ := (hestablish relay).mpr
        ⟨⟨hidle.ungated, hidle.empty⟩, hfinishes⟩
      exact ⟨effects, s₁, (happly _ _).mpr (.inr ⟨happlied, relay, hrelay, .inr ⟨hsome, h⟩⟩),
        hconfirm⟩

theorem frame_repeated_stored (hframe : (ServerMessage.frame peerSeq body).recognised = true)
    (hstate : s.state = .bootstrap b) (hagain : peerSeq = 0 ∧ b.peerCpace.isSome = true)
    (h : receiveStored (.ok ⟨_, hframe⟩) now nonce s = .ok released s') : s' = s := by
  obtain ⟨hgate, effects, s₁, happly, hconfirm⟩ := receiveStored_eq_ok.mp h
  obtain rfl := peerFrame_repeated hstate hagain happly
  exact confirm_ungated hgate hconfirm

theorem frame_stored (hframe : (ServerMessage.frame peerSeq body).recognised = true)
    (hstate : s.state = .bootstrap b) (hphase : b.phase = .finishedSent)
    (hfirst : ¬(peerSeq = 0 ∧ b.peerCpace.isSome = true)) :
    receiveStored (.ok ⟨_, hframe⟩) now nonce s = .ok released s' ↔ s.persistenceGate = none ∧
      ∃ frame relay ack, decodeFrame body = .ok frame ∧
        RelayState.acceptPeerSequence peerSeq b.relay = .ok () relay ∧
        Bootstrap.finishedFrom .claimant frame = true ∧
        (∀ retained ∈ b.peerFinished, retained = frame) ∧ ackFrame peerSeq = .ok ack ∧ s.Idle ∧
        (relay.awaitingAck = true ∧ now < b.carrier.relayExpiresAt ∧
            ({ b with relay, peerFinished := some frame } : Bootstrap).Stampable nonce ∧
            released = [ack] ∧
            s' = s.settled (.bootstrap (({ b with
              relay, peerFinished := some frame } : Bootstrap).stamped
              (saturatingSucc b.checkpointGeneration) nonce)) ∨
          relay.awaitingAck = false ∧ Finishes s { b with relay, peerFinished := some frame }
            (some ack) now nonce released s') := by
  rw [receiveStored_eq_ok]
  refine and_congr_right fun hgate => ?_
  have happly : ∀ effects s₁, applyServer (.frame peerSeq body) now nonce s = .ok effects s₁ ↔ _ :=
    fun effects s₁ => peerFrame_finishedSent hstate hphase hfirst
  have hcheckpoint : ∀ relay frame ack,
      (∃ effects s₁, checkpointBootstrap now nonce [ack]
        { s with state := .bootstrap { b with relay, peerFinished := some frame } } =
          .ok effects s₁ ∧ confirm effects s₁ = .ok released s') ↔ _ :=
    fun relay frame ack => checkpointBootstrap_stored rfl hphase
  have hestablish : ∀ relay frame ack,
      (∃ effects s₁, establish now nonce (some ack)
        { s with state := .bootstrap { b with relay, peerFinished := some frame } } =
          .ok effects s₁ ∧ confirm effects s₁ = .ok released s') ↔ _ :=
    fun relay frame ack => establish_stored rfl
  constructor
  · rintro ⟨effects, s₁, hpeer, hconfirm⟩
    obtain ⟨frame, relay, ack, hdecode, haccept, hfrom, hretained, hack, h⟩ := (happly _ _).mp hpeer
    obtain ⟨hwaiting, h⟩ | ⟨hidle, h⟩ := h
    · obtain ⟨hs, hlive, hstampable, rfl, rfl⟩ :=
        (hcheckpoint relay frame ack).mp ⟨_, _, h, hconfirm⟩
      exact ⟨frame, relay, ack, hdecode, haccept, hfrom, hretained, hack, ⟨hs.ungated, hs.empty⟩,
        .inl ⟨hwaiting, hlive, hstampable, rfl, rfl⟩⟩
    · obtain ⟨hs, hfinishes⟩ := (hestablish relay frame ack).mp ⟨_, _, h, hconfirm⟩
      exact ⟨frame, relay, ack, hdecode, haccept, hfrom, hretained, hack, ⟨hs.ungated, hs.empty⟩,
        .inr ⟨hidle, hfinishes⟩⟩
  · rintro ⟨frame, relay, ack, hdecode, haccept, hfrom, hretained, hack, hs, h⟩
    obtain ⟨hwaiting, hlive, hstampable, rfl, rfl⟩ | ⟨hidle, hfinishes⟩ := h
    · obtain ⟨effects, s₁, h, hconfirm⟩ := (hcheckpoint relay frame ack).mpr
        ⟨⟨hs.ungated, hs.empty⟩, hlive, hstampable, rfl, rfl⟩
      exact ⟨effects, s₁, (happly _ _).mpr ⟨frame, relay, ack, hdecode, haccept, hfrom, hretained,
        hack, .inl ⟨hwaiting, h⟩⟩, hconfirm⟩
    · obtain ⟨effects, s₁, h, hconfirm⟩ := (hestablish relay frame ack).mpr
        ⟨⟨hs.ungated, hs.empty⟩, hfinishes⟩
      exact ⟨effects, s₁, (happly _ _).mpr ⟨frame, relay, ack, hdecode, haccept, hfrom, hretained,
        hack, .inr ⟨hidle, h⟩⟩, hconfirm⟩

section Orders

variable {later : UInt64} {nonce' : Octets 12}
  (hack : (ServerMessage.acknowledged sequence).recognised = true)
  (hframe : (ServerMessage.frame peerSeq body).recognised = true)
  (hstate : s.state = .bootstrap b) (hphase : b.phase = .finishedSent)
  (hwaiting : b.relay.awaitingAck = true) (hnone : b.peerFinished = none)

include hstate hphase hwaiting hnone

theorem acknowledged_then_frame :
    receiveBoth (.ok ⟨_, hack⟩) (.ok ⟨_, hframe⟩) now later nonce nonce' s = .ok released s' ∧
        (∃ e, s'.state = .established e) ↔
      now < b.carrier.relayExpiresAt ∧
        Joined s b sequence peerSeq body later nonce nonce' released s' := by
  have hstamp : ∀ relay : RelayState, ({ b with relay } : Bootstrap).Stampable nonce ↔
      b.Stampable nonce := by
    intro relay
    have hkept : ({ b with relay } : Bootstrap) = { b with relay, peerFinished := none } := by
      rw [← hnone]
    rw [hkept, Bootstrap.stampable_moved hphase hnone rfl]
  simp only [receiveBoth, Call.bind_eq_ok, Call.pure_eq_ok]
  constructor
  · rintro ⟨⟨before, s₁, hfirst, after, _, hsecond, rfl, rfl⟩, e, he⟩
    have hnot : ∀ {b' : Bootstrap}, s₁.state = .bootstrap b' →
        ¬(peerSeq = 0 ∧ b'.peerCpace.isSome = true) := by
      intro b' hb' hagain
      rw [frame_repeated_stored hframe hb' hagain hsecond, hb'] at he
      cases he
    obtain ⟨-, ⟨-, -, rfl, rfl⟩ | ⟨happlied, _, hrelay, hidle, hlocal⟩⟩ :=
      (acknowledged_stored hack hstate hphase).mp hfirst
    · obtain ⟨-, frame, relay, ack, -, haccept, -, -, -, -, h⟩ :=
        (frame_stored hframe hstate hphase (hnot hstate)).mp hsecond
      obtain ⟨-, next, -, rfl⟩ := RelayState.acceptPeerSequence_eq_ok.mp haccept
      obtain ⟨-, -, -, -, rfl⟩ | ⟨hidle, -⟩ := h
      · cases he
      · cases hwaiting.symm.trans hidle
    obtain ⟨-, hlive, hstampable, rfl, rfl⟩ | ⟨hsome, -⟩ := hlocal
    swap
    · simp [hnone] at hsome
    obtain ⟨hlast, -, huncached, rfl⟩ := RelayState.acknowledgeBootstrapFrame_eq_ok.mp hrelay
    have hunrepeated := hnot rfl
    obtain ⟨-, frame, relay, ack, hdecode, haccept, hfrom, -, heffect, -, h⟩ :=
      (frame_stored (b := acknowledgedAlone b nonce) hframe rfl hphase hunrepeated).mp hsecond
    obtain ⟨hpeer, next, hnext, rfl⟩ := RelayState.acceptPeerSequence_eq_ok.mp haccept
    obtain ⟨hbusy, -⟩ | ⟨-, hfinishes⟩ := h
    · cases hbusy
    exact ⟨hlive, hidle, (hstamp _).mp hstampable, frame, next, ack, hdecode,
      ⟨hpeer, hnext, hunrepeated⟩, hfrom, heffect, ⟨happlied, hlast, huncached⟩, hfinishes⟩
  · rintro ⟨hlive, hidle, hstampable, frame, next, ack, hdecode, ⟨hpeer, hnext, hfirst⟩, hfrom,
      heffect, ⟨happlied, hlast, huncached⟩, hfinishes⟩
    have hrelay := RelayState.acknowledgeBootstrapFrame_eq_ok.mpr ⟨hlast, hwaiting, huncached, rfl⟩
    have haccept : RelayState.acceptPeerSequence peerSeq { b.relay with awaitingAck := false } =
        .ok () { b.relay with nextPeerSequence := next, awaitingAck := false } :=
      RelayState.acceptPeerSequence_eq_ok.mpr ⟨hpeer, next, hnext, rfl⟩
    have hsecond : receiveStored (.ok ⟨_, hframe⟩) later nonce'
        (s.settled (.bootstrap (acknowledgedAlone b nonce))) = .ok released s' := by
      refine (frame_stored (b := acknowledgedAlone b nonce) hframe rfl hphase hfirst).mpr
        ⟨rfl, frame, _, ack, hdecode, haccept, hfrom, ?_, heffect, ⟨rfl, rfl⟩,
          .inr ⟨rfl, hfinishes⟩⟩
      intro retained hretained
      cases hnone.symm.trans hretained
    refine ⟨⟨[], _, (acknowledged_stored hack hstate hphase).mpr ⟨hidle.ungated, .inr
      ⟨happlied, _, hrelay, hidle, .inl ⟨hnone, hlive, (hstamp _).mpr hstampable, rfl, rfl⟩⟩⟩,
      released, s', hsecond, rfl, rfl⟩, ?_⟩
    obtain ⟨_, _, _, _, _, -, -, -, -, -, -, rfl⟩ := hfinishes
    exact ⟨_, rfl⟩

theorem frame_then_acknowledged :
    receiveBoth (.ok ⟨_, hframe⟩) (.ok ⟨_, hack⟩) now later nonce nonce' s = .ok released s' ∧
        (∃ e, s'.state = .established e) ↔
      now < b.carrier.relayExpiresAt ∧
        Joined s b sequence peerSeq body later nonce nonce' released s' := by
  simp only [receiveBoth, Call.bind_eq_ok, Call.pure_eq_ok]
  constructor
  · rintro ⟨⟨before, s₁, hfirst, after, _, hsecond, rfl, rfl⟩, e, he⟩
    by_cases hagain : peerSeq = 0 ∧ b.peerCpace.isSome = true
    -- a share that comes again leaves the session where the acknowledgement alone cannot open it
    · have hsame : s₁ = s := frame_repeated_stored hframe hstate hagain hfirst
      subst hsame
      obtain ⟨-, ⟨-, -, -, rfl⟩ | ⟨-, _, -, -, hlocal⟩⟩ :=
        (acknowledged_stored hack hstate hphase).mp hsecond
      · cases hstate.symm.trans he
      obtain ⟨-, -, -, -, rfl⟩ | ⟨hsome, -⟩ := hlocal
      · cases he
      · simp [hnone] at hsome
    obtain ⟨-, frame, _, ack, hdecode, haccept, hfrom, -, heffect, hidle, h⟩ :=
      (frame_stored hframe hstate hphase hagain).mp hfirst
    obtain ⟨hpeer, next, hnext, rfl⟩ := RelayState.acceptPeerSequence_eq_ok.mp haccept
    obtain ⟨-, hlive, hstampable, rfl, rfl⟩ | ⟨hidle, -⟩ := h
    swap
    · cases hwaiting.symm.trans hidle
    have hfinished : (some frame).all (Bootstrap.finishedFrom .claimant) = true := by
      simpa using hfrom
    obtain ⟨-, ⟨-, -, -, rfl⟩ | ⟨happlied, _, hrelay, -, hlocal⟩⟩ :=
      (acknowledged_stored (b := finishedAlone b frame next nonce) hack rfl hphase).mp hsecond
    · cases he
    obtain ⟨hlast, -, huncached, rfl⟩ := RelayState.acknowledgeBootstrapFrame_eq_ok.mp hrelay
    obtain ⟨hmissing, -⟩ | ⟨-, hfinishes⟩ := hlocal
    · cases hmissing
    exact ⟨hlive, hidle, (Bootstrap.stampable_moved hphase hnone hfinished).mp hstampable, frame,
      next, ack, hdecode, ⟨hpeer, hnext, hagain⟩, hfrom, heffect, ⟨happlied, hlast, huncached⟩,
      finishes_some.mpr ⟨after, hfinishes, rfl⟩⟩
  · rintro ⟨hlive, hidle, hstampable, frame, next, ack, hdecode, ⟨hpeer, hnext, hagain⟩, hfrom,
      heffect, ⟨happlied, hlast, huncached⟩, hfinishes⟩
    have hfinished : (some frame).all (Bootstrap.finishedFrom .claimant) = true := by
      simpa using hfrom
    obtain ⟨more, hrest, rfl⟩ := finishes_some.mp hfinishes
    have haccept := RelayState.acceptPeerSequence_eq_ok.mpr ⟨hpeer, next, hnext, rfl⟩
    have hfirst : receiveStored (.ok ⟨_, hframe⟩) now nonce s =
        .ok [ack] (s.settled (.bootstrap (finishedAlone b frame next nonce))) := by
      refine (frame_stored hframe hstate hphase hagain).mpr ⟨hidle.ungated, frame, _, ack, hdecode,
        haccept, hfrom, ?_, heffect, hidle, .inl ⟨hwaiting, hlive,
          (Bootstrap.stampable_moved hphase hnone hfinished).mpr hstampable, rfl, rfl⟩⟩
      intro retained hretained
      cases hnone.symm.trans hretained
    have hrelay : RelayState.acknowledgeBootstrapFrame sequence
        { b.relay with nextPeerSequence := next } =
        .ok () { b.relay with nextPeerSequence := next, awaitingAck := false } :=
      RelayState.acknowledgeBootstrapFrame_eq_ok.mpr ⟨hlast, hwaiting, huncached, rfl⟩
    have hsecond : receiveStored (.ok ⟨_, hack⟩) later nonce'
        (s.settled (.bootstrap (finishedAlone b frame next nonce))) = .ok more s' :=
      (acknowledged_stored (b := finishedAlone b frame next nonce) hack rfl hphase).mpr
        ⟨rfl, .inr ⟨happlied, _, hrelay, ⟨rfl, rfl⟩, .inr ⟨rfl, hrest⟩⟩⟩
    refine ⟨⟨[ack], _, hfirst, more, s', hsecond, rfl, rfl⟩, ?_⟩
    obtain ⟨_, _, _, _, _, -, -, -, -, -, -, rfl⟩ := hfinishes
    exact ⟨_, rfl⟩

end Orders

/-- The own Finished value is unacknowledged, and the claimant's has not come. -/
structure Awaits (s : AllocatorSession V) (b : Bootstrap) : Prop where
  state : s.state = .bootstrap b
  phase : b.phase = .finishedSent
  waiting : b.relay.awaitingAck = true
  missing : b.peerFinished = none

/-- An acknowledgement and a peer frame that open the session open the same one and
release the same effects, whichever comes first. -/
def OrderFree (s : AllocatorSession V) (expiry : UInt64) : Prop :=
  ∀ (sequence peerSeq : UInt8) (body : Bytes)
    (hack : (ServerMessage.acknowledged sequence).recognised = true)
    (hframe : (ServerMessage.frame peerSeq body).recognised = true) (nonce nonce' : Octets 12)
    (now later now' later' : UInt64), (∀ time ∈ [now, later, now', later'], time < expiry) →
    ∀ released s', (∃ e, s'.state = .established e) →
      (receiveBoth (.ok ⟨_, hack⟩) (.ok ⟨_, hframe⟩) now later nonce nonce' s = .ok released s' ↔
        receiveBoth (.ok ⟨_, hframe⟩) (.ok ⟨_, hack⟩) now' later' nonce nonce' s = .ok released s')

theorem Joined.later {later later' : UInt64} {nonce' : Octets 12}
    (h : Joined s b sequence peerSeq body later nonce nonce' released s')
    (hlive : later' < b.carrier.relayExpiresAt) :
    Joined s b sequence peerSeq body later' nonce nonce' released s' := by
  obtain ⟨hidle, hstampable, frame, next, ack, hdecode, hpeer, hfrom, heffect, hack, hfinishes⟩ := h
  exact ⟨hidle, hstampable, frame, next, ack, hdecode, hpeer, hfrom, heffect, hack,
    hfinishes.later hlive⟩

theorem Awaits.order_free (h : s.Awaits b) : s.OrderFree b.carrier.relayExpiresAt := by
  intro sequence peerSeq body hack hframe nonce nonce' now later now' later' hlive released s' he
  have hstate := h.state
  have hphase := h.phase
  constructor
  · intro hrun
    obtain ⟨-, hjoined⟩ :=
      (acknowledged_then_frame hack hframe hstate hphase h.waiting h.missing).mp ⟨hrun, he⟩
    have hlater := hjoined.later (hlive later' (by simp))
    exact ((frame_then_acknowledged hack hframe hstate hphase h.waiting h.missing).mpr
      ⟨hlive now' (by simp), hlater⟩).1
  · intro hrun
    obtain ⟨-, hjoined⟩ :=
      (frame_then_acknowledged hack hframe hstate hphase h.waiting h.missing).mp ⟨hrun, he⟩
    have hlater := hjoined.later (hlive later (by simp))
    exact ((acknowledged_then_frame hack hframe hstate hphase h.waiting h.missing).mpr
      ⟨hlive now (by simp), hlater⟩).1

/-- Both orders of a delivery that opens the session in one of them. -/
theorem OrderFree.both {expiry : UInt64} (h : s.OrderFree expiry)
    {hack : (ServerMessage.acknowledged sequence).recognised = true}
    {hframe : (ServerMessage.frame peerSeq body).recognised = true} {later : UInt64}
    {nonce' : Octets 12}
    (hok : (Call.verdict (receiveBoth (.ok ⟨_, hack⟩) (.ok ⟨_, hframe⟩) now later nonce nonce'
      s)).isOk = true)
    (hopened : (Call.after (receiveBoth (.ok ⟨_, hack⟩) (.ok ⟨_, hframe⟩) now later nonce nonce'
      s)).established?.isSome = true) {now' later' : UInt64}
    (hlive : ∀ time ∈ [now, later, now', later'], time < expiry) :
    ∃ released s', (∃ e, s'.state = .established e) ∧
      receiveBoth (.ok ⟨_, hack⟩) (.ok ⟨_, hframe⟩) now later nonce nonce' s = .ok released s' ∧
      receiveBoth (.ok ⟨_, hframe⟩) (.ok ⟨_, hack⟩) now' later' nonce nonce' s =
        .ok released s' := by
  obtain ⟨s', hrun⟩ := Call.verdict_eq_ok.mp (eq_ok_value _ hok)
  rw [hrun] at hopened
  obtain ⟨e, he⟩ := Option.isSome_iff_exists.mp hopened
  have hestablished : ∃ e, s'.state = .established e := ⟨e, established?_eq_some.mp he⟩
  exact ⟨_, s', hestablished, hrun,
    (h sequence peerSeq body hack hframe _ _ _ _ _ _ hlive _ s' hestablished).mp hrun⟩

end AllocatorSession

end CredentialV2

/-! ### Both orders of a sample handshake -/

namespace CredentialV2
open Codec Calls

attribute [local instance] Primitives.transparent

def ClaimantInput.sample : ClaimantInput where
  carrier := .sample
  presence := Presence.new (fill 16 [4]) (fill 16 [5])
  cpaceScalar := fill 32 [6]
  profileDigest := fill 32 [7]

namespace ClaimantSession

/-- The relay welcomes the claimant and admits it to the mailbox. -/
def joining : List ClaimantAct :=
  [(fill 32 [8], .receive (.ok ⟨.welcome, ServerMessage.recognised_welcome⟩) 0),
    (fill 32 [8], .receive (.ok ⟨.claimedV2 (fill 32 [1]) (fill 32 [9]) 100, rfl⟩) 0)]

/-- The share of an allocator that holds the carrier and the presence secrets. -/
def allocatorShare : Bytes :=
  let share : Except Error Bytes := do
    let (_, message) ← (Context.derive Carrier.sample (fill 32 [7])).startCpace .allocator
      (Presence.new (fill 16 [4]) (fill 16 [5])) (fill 32 [10])
    let frame ← Frame.ofCpace message
    encodeFrame frame
  share.toOption.getD []

theorem allocatorShare_recognised : (ServerMessage.frame 0 allocatorShare).recognised = true := by
  decide +kernel

def joined : ClaimantSession Unit := Runs.after act (.new .sample ()) joining

theorem joined_facts : (joined.relay.any RelayState.awaitingAck = true ∧
    joined.phase = .shareSent ∧ joined.peerShare = none ∧ joined.carrier.relayExpiresAt = 100) ∧
    (Call.verdict (receiveBoth (.ok ⟨.acknowledged 0, rfl⟩)
      (.ok ⟨.frame 0 allocatorShare, allocatorShare_recognised⟩) 1 2 joined)).isOk = true := by
  decide +kernel

theorem awaits_joined : joined.Awaits := by
  obtain ⟨⟨hwaiting, hphase, hshare, -⟩, -⟩ := joined_facts
  exact ⟨(Option.any_eq_true _ _).mp hwaiting, .inl ⟨hphase, hshare⟩⟩

end ClaimantSession

namespace AllocatorSession

def confirmed : AllocatorSession Unit :=
  (rehearsed (allocation ++ pinning ++ confirming)).live.get (by decide +kernel)

def confirmedBootstrap : Bootstrap := confirmed.bootstrap?.get (by decide +kernel)

theorem claimantFinished_recognised :
    (ServerMessage.frame 1 claimantFinished).recognised = true := by
  decide +kernel

theorem confirmed_facts : (confirmedBootstrap.phase = .finishedSent ∧
    confirmedBootstrap.relay.awaitingAck = true ∧ confirmedBootstrap.peerFinished = none ∧
      confirmedBootstrap.carrier.relayExpiresAt = 100) ∧
    (Call.verdict (receiveBoth (.ok ⟨.acknowledged 1, rfl⟩)
      (.ok ⟨.frame 1 claimantFinished, claimantFinished_recognised⟩) 1 2 (fill 12 [4])
      (fill 12 [5]) confirmed)).isOk = true ∧
    (Call.after (receiveBoth (.ok ⟨.acknowledged 1, rfl⟩)
      (.ok ⟨.frame 1 claimantFinished, claimantFinished_recognised⟩) 1 2 (fill 12 [4])
      (fill 12 [5]) confirmed)).established?.isSome = true := by
  decide +kernel

theorem awaits_confirmed : confirmed.Awaits confirmedBootstrap := by
  obtain ⟨⟨hphase, hwaiting, hnone, -⟩, -⟩ := confirmed_facts
  have hstate : confirmed.bootstrap? = some confirmedBootstrap := (Option.some_get _).symm
  exact ⟨bootstrap?_eq_some.mp hstate, hphase, hwaiting, hnone⟩

end AllocatorSession

end CredentialV2
end CbclPairing
