import CbclPairing.CredentialV2.Bootstrap

/-! What an accepted checkpoint gives back: the state a restored session starts
from keeps every invariant of the live ones. -/
namespace CbclPairing
namespace CredentialV2
open Codec Codec.Cbor Calls

/-! ### Reading -/

namespace Read

variable {α : Type}

theorem verdict_eq_ok {x : Except Error α} {a : α} {input rest : Bytes} :
    verdict x input = .ok (a, rest) ↔ x = .ok a ∧ rest = input := by
  cases x with
  | error e => simp [verdict, Except.map]
  | ok b => simp [verdict, Except.map, eq_comm]

theorem option_yields {read : Cursor Error α} {P : α → Prop} (h : read.Yields P) :
    (option read).Yields fun value => ∀ a ∈ value, P a := by
  unfold option
  refine .skip fun b => ?_
  split_ifs
  · exact .pure (by simp)
  · exact .bind h fun a ha => .pure (by simpa using ha)
  · rintro input rest value hvalue
    simp at hvalue

theorem verdict_yields {x : Except Error α} : (verdict x).Yields fun a => x = .ok a :=
  fun _ _ _ h => (verdict_eq_ok.mp h).1

theorem relay_yields : relay.Yields fun r =>
    r.awaitingAck = r.cachedOutbound.isSome ∧ r.cachedOutbound.all Frame.isSealed = true := by
  unfold relay
  refine .skip fun _ => .skip fun _ => .skip fun _ => .skip fun _ => .skip fun _ =>
    .guard fun hcached => .pure ?_
  simpa only [not_or, ne_eq, not_not, Bool.not_eq_true', Bool.not_eq_false] using hcached

variable [Primitives]

theorem retained_eq_ok {kind : Kind} {intentDigest contentHash : Octets 32} {bytes : Bytes}
    (h : retained kind intentDigest contentHash bytes = .ok ()) :
    ∃ object : Object, bytes = object.bytes ∧ object.kind = kind ∧
      object.intentDigest = intentDigest ∧ object.contentHash = contentHash := by
  simp only [retained, Calls.except_bind_eq_ok, Calls.guard_eq_ok, not_or, ne_eq, not_not] at h
  obtain ⟨object, hobject, ⟨hkind, hintent, hhash⟩, -⟩ := h
  exact ⟨object, (Object.bytes_of_decodeObject hobject).symm, hkind, hintent, hhash⟩

theorem last_yields : Read.last.Yields LastObject.Faithful := by
  unfold Read.last
  refine .skip fun sender => .skip fun number => .skip fun kind => .skip fun intentDigest =>
    .skip fun contentHash => .skip fun bytes => ?_
  cases bytes with
  | none => exact .pure fun value hvalue => by simp at hvalue
  | some bytes =>
    refine .bind verdict_yields fun _ hretained => .pure fun value hvalue => ?_
    obtain rfl := Option.some.inj hvalue
    exact retained_eq_ok hretained

end Read

variable [Primitives]

/-! ### Endpoints -/

theorem sound_of_consistent {V : Type} {e : Endpoint V}
    (h : consistentProjection e.phase e.intentDigest e.last = true)
    (hfaithful : ∀ last ∈ e.last, last.Faithful) : e.Sound := by
  refine ⟨fun _ => h, ?_, hfaithful⟩
  rintro last hlast hkind
  rw [hlast] at h
  cases hphase : e.phase <;> cases hintent : e.intentDigest <;>
    simp only [hphase, hintent, consistentProjection, Bool.and_eq_true, beq_iff_eq,
      Bool.false_eq_true] at h
  case accountSelected.none => exact absurd h.1.2 hkind
  case confirmed.some => rw [h.1]
  case terminal.some => rw [h.2]
  all_goals rw [h.2]

/-- An endpoint a checkpoint gave back. -/
structure Established.Reopened {V : Type} (s : Established V) (side : Side) (carrier : Carrier)
    (generation : UInt64) : Prop where
  coherent : s.Coherent
  complete : s.Complete
  side : s.endpoint.side = side
  carrier : s.endpoint.carrier = carrier
  generation : s.endpoint.checkpointGeneration = generation
  receipt : s.endpoint.phase = .terminal → s.endpoint.receiptReleased = true

variable {V : Type} [BodyVerifier V]

theorem decodeInner_yields (side : Side) (carrier : Carrier) (generation : UInt64)
    (nonce : Octets 12) (v : V) :
    (decodeInner side carrier generation nonce v).Yields fun s =>
      s.Coherent ∧ s.Complete ∧ s.endpoint.side = side ∧ s.endpoint.carrier = carrier ∧
        s.endpoint.checkpointGeneration = generation := by
  unfold decodeInner
  refine .skip fun _ => .guard fun _ => .skip fun side' => .skip fun _ => .skip fun carrier' =>
    .guard fun hbindings => .skip fun _ => .skip fun phase => .skip fun intent =>
    .bind (Read.option_yields Read.last_yields) fun last hlast => .skip fun _ => .skip fun verifier =>
    .skip fun generation' => .skip fun nonce' => .skip fun channel =>
    .bind Read.relay_yields fun relay hrelay => .skip fun _ => .guard fun hchecks => .pure ?_
  simp only [not_or, ne_eq, not_not] at hbindings
  obtain ⟨rfl, rfl⟩ := hbindings
  simp only [not_or, ne_eq, not_not, Bool.not_eq_true', Bool.not_eq_false, Bool.not_eq_true]
    at hchecks
  obtain ⟨-, rfl, rfl, hside, hlive, hmissing, hprojection⟩ := hchecks
  refine ⟨⟨hside, hlive, hrelay.1, hrelay.2, sound_of_consistent hprojection hlast⟩, hmissing, rfl, rfl, rfl⟩

theorem Endpoint.restoreCheckpoint_eq_ok {input : Bytes} {wrappingKey : Octets 32} {side : Side}
    {carrier : Carrier} {generation now : UInt64} {v : V} {s : Established V}
    (h : Endpoint.restoreCheckpoint input wrappingKey side carrier generation now v = .ok s) :
    s.Reopened side carrier generation := by
  simp only [Endpoint.restoreCheckpoint, Calls.except_bind_eq_ok, Except.ok.injEq] at h
  obtain ⟨opened, -, ⟨s', _⟩, hdecode, _, hphase, rfl⟩ := h
  obtain ⟨hcoherent, hcomplete, hside, hcarrier, hgeneration⟩ := decodeInner_yields _ _ _ _ _ hdecode
  exact ⟨hcoherent, hcomplete, hside, hcarrier, hgeneration,
    fun hterminal => ((validateCheckpointPhase_ok hphase).1 hterminal).2⟩

/-! ### Bootstraps -/

/-- A bootstrap a checkpoint gave back. -/
structure Bootstrap.Reopened (b : Bootstrap) (carrier : Carrier) (generation : UInt64)
    (mode : AllocatorMode) : Prop where
  coherent : b.Coherent
  carrier : b.carrier = carrier
  generation : b.checkpointGeneration = generation
  mode : b.mode = mode

theorem Bootstrap.revalidate_pending {b b' : Bootstrap} (h : b.revalidate = .ok b') :
    ∃ pending, b' = { b with pending } := by
  unfold revalidate at h
  cases hphase : b.phase with
  | finishedSent =>
    simp only [hphase, Calls.except_bind_eq_ok, Except.ok.injEq] at h
    obtain ⟨pending, -, rfl⟩ := h
    exact ⟨some pending, rfl⟩
  | shareSent =>
    simp only [hphase, Calls.except_bind_eq_ok] at h
    obtain ⟨scalar, -, ⟨state, frame⟩, -, h⟩ := h
    obtain ⟨-, h⟩ := Calls.guard_eq_ok.mp h
    obtain rfl := Except.ok.inj h
    exact ⟨b.pending, by rw [← hphase]⟩
  | allocated =>
    simp only [hphase, Except.ok.injEq] at h
    exact ⟨b.pending, by rw [← hphase, h]⟩
  | claimed =>
    simp only [hphase, Except.ok.injEq] at h
    exact ⟨b.pending, by rw [← hphase, h]⟩

theorem Bootstrap.decodeInner_yields (carrier : Carrier) (generation : UInt64) (nonce : Octets 12)
    (mode : AllocatorMode) :
    (Bootstrap.decodeInner carrier generation nonce mode).Yields fun b =>
      b.Reopened carrier generation mode := by
  unfold Bootstrap.decodeInner Bootstrap.decodeBody
  refine .skip fun _ => .skip fun mode' => .guard fun hmode => .skip fun _ => .skip fun carrier' =>
    .guard fun hcarrier => .skip fun _ => .skip fun _ => .skip fun _ => .skip fun _ =>
    .skip fun _ => .skip fun _ => .skip fun _ => .skip fun _ => .skip fun _ => .skip fun _ =>
    .skip fun _ => .skip fun _ => .skip fun _ => .skip fun generation' => .skip fun _ =>
    .skip fun _ => .guard fun hbindings => .guard fun _ => ?_
  simp only [not_or, ne_eq, not_not] at hmode hcarrier hbindings
  obtain ⟨-, hgeneration, -⟩ := hbindings
  rintro input rest b hb
  have hvalid := Read.verdict_yields hb
  obtain ⟨pending, rfl⟩ := Bootstrap.revalidate_pending hvalid
  exact ⟨⟨rfl, hvalid⟩, hcarrier, hgeneration, hmode⟩

theorem Bootstrap.restoreCheckpoint_eq_ok {input : Bytes} {wrappingKey : Octets 32}
    {carrier : Carrier} {generation now : UInt64} {mode : AllocatorMode} {b : Bootstrap}
    (h : Bootstrap.restoreCheckpoint input wrappingKey carrier generation now mode = .ok b) :
    b.Reopened carrier generation mode := by
  simp only [Bootstrap.restoreCheckpoint, Calls.except_bind_eq_ok, Calls.guard_eq_ok,
    Except.ok.injEq] at h
  obtain ⟨opened, -, -, ⟨b', _⟩, hdecode, rfl⟩ := h
  exact Bootstrap.decodeInner_yields _ _ _ _ hdecode

end CredentialV2
end CbclPairing
