import CbclPairing.CredentialV2.Endpoint

/-! Account selections have one encoding, and go out when their body fits a control
object. -/
namespace CbclPairing
namespace CredentialV2
open Codec Codec.Cbor

namespace AccountSelect

/-! ### One encoding -/

theorem new_eq_ok {carrierCeremonyId : Octets 32} {applicationId : Bytes}
    {accountScope : Option (Octets 32)} {s : AccountSelect} :
    new carrierCeremonyId applicationId accountScope = .ok s ↔
      (applicationId ≠ [] ∧ applicationId.length ≤ 2048) ∧
        s = ⟨carrierCeremonyId, applicationId, accountScope⟩ := by
  unfold new
  split_ifs with h
  · simp only [false_iff]
    rintro ⟨⟨hne, hle⟩, -⟩
    obtain hempty | hlong := h
    · exact hne hempty
    · omega
  · simp only [not_or, not_lt] at h
    simp [h, eq_comm]

/-- An identifier that a selection accepts and a Rust string holds. -/
structure Named (s : AccountSelect) : Prop where
  nonempty : s.applicationId ≠ []
  length_le : s.applicationId.length ≤ 2048
  utf8 : validUtf8 s.applicationId = true

theorem named_of_new {carrierCeremonyId : Octets 32} {applicationId : Bytes}
    {accountScope : Option (Octets 32)} {s : AccountSelect}
    (hutf8 : validUtf8 applicationId = true)
    (h : new carrierCeremonyId applicationId accountScope = .ok s) : s.Named := by
  obtain ⟨⟨hne, hle⟩, rfl⟩ := new_eq_ok.mp h
  exact ⟨hne, hle, hutf8⟩

theorem new_ok {s : AccountSelect} (h : s.Named) :
    new s.carrierCeremonyId s.applicationId s.accountScope = .ok s :=
  new_eq_ok.mpr ⟨⟨h.nonempty, h.length_le⟩, rfl⟩

/-- The scope member: `[0]`, or `[1, scope]`. -/
def selection : Option (Octets 32) → Value
  | none => .array [.integer 0]
  | some scope => .array [.integer 1, .bytes scope.val]

def members (s : AccountSelect) : List Value :=
  [.text accountSelectDomain, .bytes s.carrierCeremonyId.val, .text s.applicationId,
    selection s.accountScope]

theorem encode_eq (s : AccountSelect) : s.encode = toCanonicalVec (.array s.members) := by
  unfold encode members selection
  cases s.accountScope <;> rfl

theorem plain_selection {d : ℕ} (scope : Option (Octets 32)) : Plain (d + 2) (selection scope) := by
  cases scope with
  | none => simp [selection, Plain]
  | some scope => simp [selection, Plain]

theorem plain_members {s : AccountSelect} (h : s.Named) : Plain maxDepth (.array s.members) := by
  have hdomain : accountSelectDomain.length = 26 ∧ validUtf8 accountSelectDomain = true := by
    decide
  have hlength := h.length_le
  refine plain_array (by simp [members]) ?_
  simp only [members, List.forall_mem_cons, List.not_mem_nil, false_imp_iff, implies_true, and_true]
  refine ⟨⟨by rw [hdomain.1]; decide, hdomain.2⟩, by simp [Plain], ⟨by omega, h.utf8⟩,
    plain_selection s.accountScope⟩

theorem decodeSelection_selection (scope : Option (Octets 32)) :
    decodeSelection (selection scope) = .ok scope := by
  have hzero : uint (.integer 0) = .ok 0 := uint_integer (n := 0) (by decide)
  have hone : uint (.integer 1) = .ok 1 := uint_integer (n := 1) (by decide)
  cases scope with
  | none => simp [selection, decodeSelection, hzero]
  | some scope =>
    simp only [selection, decodeSelection, hone, Calls.ok_bind, fixedBytes_bytes]
    rfl

theorem selection_of_decode {value : Value} {scope : Option (Octets 32)}
    (h : decodeSelection value = .ok scope) : value = selection scope := by
  unfold decodeSelection at h
  split at h
  · obtain ⟨n, hn, h⟩ := Calls.except_bind_eq_ok.mp h
    split_ifs at h with hzero
    obtain rfl := Except.ok.inj h
    rw [uint_eq_ok hn, hzero]
    rfl
  · next tag bytes =>
    obtain ⟨n, hn, h⟩ := Calls.except_bind_eq_ok.mp h
    split_ifs at h with hone
    cases hvalue : fixedBytes 32 bytes with
    | error e => simp [hvalue] at h
    | ok value =>
      rw [hvalue] at h
      obtain rfl := Except.ok.inj h
      rw [uint_eq_ok hn, hone, fixedBytes_eq_ok.mp hvalue]
      rfl
  · cases h

theorem decode_encode {s : AccountSelect} (h : s.Named) : decode s.encode = .ok s := by
  have hfix : canonical (.array s.members) = .array s.members := by
    unfold members selection
    cases s.accountScope <;> rfl
  unfold decode
  rw [encode_eq, decodeCanonical_toCanonicalVec (plain_members h), hfix, Calls.ok_bind]
  simp only [members, Value.asText, ne_eq, not_true_eq_false, if_false, fixedBytes_bytes,
    Calls.ok_bind, orSchema_some, decodeSelection_selection, new_ok h]

/-- What the recogniser admits is the encoding of its result. -/
theorem encode_of_decode {body : Bytes} {s : AccountSelect} (h : decode body = .ok s) :
    s.encode = body := by
  unfold decode at h
  rw [Calls.except_bind_eq_ok] at h
  obtain ⟨value, hvalue, h⟩ := h
  split at h
  case h_2 => cases h
  next domain ceremony application scope =>
  split_ifs at h with hdomain
  simp only [Calls.except_bind_eq_ok] at h
  obtain ⟨ceremonyId, hceremony, applicationId, happlication, accountScope, hscope, h⟩ := h
  obtain ⟨-, rfl⟩ := new_eq_ok.mp h
  have htext := asText_eq_some (orSchema_eq_ok.mp happlication)
  rw [← toCanonicalVec_of_decode hvalue, encode_eq, members, fixedBytes_eq_ok.mp hceremony, htext,
    selection_of_decode hscope, asText_eq_some (not_not.mp hdomain)]

/-! ### What fits -/

/-- The octets of a body: 63 fixed ones, the identifier, and the scope. -/
theorem encode_length (s : AccountSelect) : s.encode.length =
    63 + headSize s.applicationId.length + s.applicationId.length +
      if s.accountScope.isSome then 36 else 2 := by
  have hdomain : size (.text accountSelectDomain) = 28 := by decide
  have hzero : size (.integer 0) = 1 := rfl
  have hone : size (.integer 1) = 1 := rfl
  have h1 : headSize 1 = 1 := rfl
  have h2 : headSize 2 = 1 := rfl
  have h4 : headSize 4 = 1 := rfl
  have h32 : headSize 32 = 2 := rfl
  rw [encode_eq, toCanonicalVec_length, size_array]
  cases hscope : s.accountScope with
  | none =>
    simp only [members, selection, hscope, List.map_cons, List.map_nil, List.sum_cons, List.sum_nil,
      size_bytes, size_text, size_array, hdomain, hzero, Octets.length_val, List.length_cons,
      List.length_nil, zero_add, Nat.reduceAdd, h1, h4, h32, Option.isSome_none, Bool.false_eq_true,
      if_false]
    omega
  | some scope =>
    simp only [members, selection, hscope, List.map_cons, List.map_nil, List.sum_cons, List.sum_nil,
      size_bytes, size_text, size_array, hdomain, hone, Octets.length_val, List.length_cons,
      List.length_nil, zero_add, Nat.reduceAdd, h2, h4, h32, Option.isSome_some, if_true]
    omega

/-- The longest identifier whose body fits a control object. -/
def longestSendable (accountScope : Option (Octets 32)) : ℕ :=
  if accountScope.isSome then 1946 else 1980

theorem encode_fits {s : AccountSelect} (h : s.Named) :
    s.encode.length ≤ maximumBody .accountSelect ↔
      s.applicationId.length ≤ longestSendable s.accountScope := by
  have hbound : maximumBody .accountSelect = 2048 := rfl
  rw [encode_length, hbound, longestSendable]
  have hhead : headSize s.applicationId.length ≤ 3 ∧ (256 ≤ s.applicationId.length →
      headSize s.applicationId.length = 3) := by
    have hlength := h.length_le
    unfold headSize
    split_ifs <;> omega
  split_ifs <;> omega

variable [Primitives]

/-- The selection goes out as an object that is recognised as this selection. -/
def Sendable (s : AccountSelect) : Prop :=
  ∃ o, s.object = .ok o ∧ recognise o s.carrierCeremonyId s.applicationId = .ok s

theorem recognise_object {s : AccountSelect} {o : Object} (hnamed : s.Named)
    (h : s.object = .ok o) : recognise o s.carrierCeremonyId s.applicationId = .ok s := by
  unfold object Object.new at h
  split_ifs at h
  obtain rfl := Except.ok.inj h
  unfold recognise
  rw [if_neg (by simp), decode_encode hnamed, Calls.ok_bind, if_neg (by simp)]

theorem sendable_iff {s : AccountSelect} (h : s.Named) :
    s.Sendable ↔ s.applicationId.length ≤ longestSendable s.accountScope := by
  rw [← encode_fits h]
  constructor
  · rintro ⟨o, hobject, -⟩
    unfold object Object.new at hobject
    split_ifs at hobject with hbody
    exact hbody.2
  · intro hfits
    have hpos : 0 < s.encode.length := by
      rw [encode_length]
      omega
    have hobject : s.object =
        .ok ⟨.accountSelect, accountSelectIntentDigest, s.encode, hpos, hfits⟩ := by
      rw [object, Object.new, dif_pos ⟨hpos, hfits⟩]
    exact ⟨_, hobject, recognise_object h hobject⟩

end AccountSelect
end CredentialV2

/-! ### An application context that no selection can name -/

namespace CredentialV2
open Codec Codec.Cbor

attribute [local instance] Primitives.transparent

namespace AccountSelect

def sample : AccountSelect := ⟨Octets.replicate 32 0, ascii "https://example.com/a", none⟩

/-- An application identifier of 2,048 octets. -/
def longestApplicationId : Bytes := ascii "https://example.com/" ++ List.replicate 2028 97

end AccountSelect
end CredentialV2
end CbclPairing
