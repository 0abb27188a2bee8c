import CbclPairing.CredentialV2.AllocatorRuns

/-! Objects, frames and carriers have one encoding each. -/
namespace CbclPairing
namespace CredentialV2
open Codec Codec.Cbor

theorem Kind.capacity_eq {kind kind' : Kind} (h : kind.isLarge = kind'.isLarge) :
    capacity kind = capacity kind' := by
  unfold capacity
  rw [h]

/-- The padding hides all of a body but its arm and the width of its length. -/
theorem Object.bytes_length_eq {o o' : Object} (harm : o.kind.isLarge = o'.kind.isLarge)
    (hhead : headSize o.body.length = headSize o'.body.length) :
    o.bytes.length = o'.bytes.length := by
  rw [o.bytes_length, o'.bytes_length, hhead, Kind.capacity_eq harm]

theorem Frame.decodeFrame_iff {f : Frame} {b : Bytes} :
    decodeFrame b = .ok f ↔ encodeFrame f = .ok b :=
  ⟨encodeFrame_of_decodeFrame, decodeFrame_of_encodeFrame⟩

variable [Primitives]

/-- What the carrier recogniser admits is the encoding of its result. -/
theorem Carrier.encodeCarrier_of_decodeCarrier {input : Bytes} {c : Carrier}
    (h : decodeCarrier input = .ok c) : encodeCarrier c = input := by
  unfold decodeCarrier at h
  simp only [Calls.except_bind_eq_ok] at h
  obtain ⟨_, -, _, -, _, -, _, -, _, -, h⟩ := h
  split_ifs at h
  all_goals
    simp only [Calls.except_bind_eq_ok] at h
    obtain ⟨_, -, _, -, _, -, _, -, _, -, _, -, _, -, _, -, carrier, -, h⟩ := h
    split_ifs at h with hne
    obtain rfl := Except.ok.inj h
    exact not_not.mp hne

end CredentialV2

/-! ### Sample encodings -/

namespace CredentialV2
open Codec Codec.Cbor

attribute [local instance] Primitives.transparent

def Object.approval (body : Bytes) (h : 0 < body.length ∧ body.length ≤ 2048) : Object :=
  ⟨.intentApprove, Octets.replicate 32 0, body, h.1, h.2⟩

end CredentialV2
end CbclPairing
