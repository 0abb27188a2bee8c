import CbclPairing.CredentialV2.Object

/-! The closed CPace, Finished and sealed frames, and their one encoding. -/
namespace CbclPairing
namespace CredentialV2
open Codec Codec.Cbor

/-- A CPace share and the sender's exact associated data. -/
structure CpaceMessage where
  side : Side
  share : Octets 32
  associatedData : Bytes
  deriving DecidableEq

inductive Frame where
  | cpace (message : CpaceMessage)
  | finished (side : Side) (value : Octets 64)
  | sealed (direction : Direction) (counter : UInt64) (ciphertext : Bytes)
  deriving DecidableEq

def maxFrameCiphertext : ℕ := 69572

def directionNumber : Direction → ℕ
  | .allocatorToClaimant => 0
  | .claimantToAllocator => 1

def direction (value : Value) : Except Error Direction := do
  match ← uint value with
  | 0 => .ok .allocatorToClaimant
  | 1 => .ok .claimantToAllocator
  | _ => .error .schema

namespace CpaceMessage

def admissible (m : CpaceMessage) : Bool :=
  0 < m.associatedData.length && m.associatedData.length ≤ 256

/-- The nested message of a CPace frame. -/
def nested (m : CpaceMessage) : Value :=
  .array [.integer 2, .integer (sideNumber m.side), .bytes m.share.val, .bytes m.associatedData]

end CpaceMessage

namespace Frame

/-- The frame a CPace message travels in. -/
def ofCpace (message : CpaceMessage) : Except Error Frame :=
  if message.admissible then .ok (.cpace message) else .error .size

def cpaceMessage : Frame → Option CpaceMessage
  | .cpace message => some message
  | _ => none

def finishedValue : Frame → Option (Side × Octets 64)
  | .finished side value => some (side, value)
  | _ => none

def isSealed : Frame → Bool
  | .sealed .. => true
  | _ => false

def entries : Frame → List (Value × Value)
  | .cpace m =>
    [(.text (ascii "v"), .integer 2),
      (.text (ascii "kind"), .text (ascii "cpace")),
      (.text (ascii "role"), .integer (sideNumber m.side)),
      (.text (ascii "message"), .bytes (toCanonicalVec m.nested))]
  | .finished side value =>
    [(.text (ascii "v"), .integer 2),
      (.text (ascii "kind"), .text (ascii "finished")),
      (.text (ascii "role"), .integer (sideNumber side)),
      (.text (ascii "value"), .bytes value.val)]
  | .sealed direction counter ciphertext =>
    [(.text (ascii "v"), .integer 2),
      (.text (ascii "kind"), .text (ascii "sealed")),
      (.text (ascii "direction"), .integer (directionNumber direction)),
      (.text (ascii "counter"), .integer counter.toNat),
      (.text (ascii "ciphertext"), .bytes ciphertext)]

/-- The size bounds the encoder checks. -/
def admissible : Frame → Bool
  | .cpace m => m.admissible
  | .finished _ _ => true
  | .sealed _ _ ciphertext => 17 ≤ ciphertext.length && ciphertext.length ≤ maxFrameCiphertext

end Frame

def encodeFrame (frame : Frame) : Except Error Bytes :=
  if frame.admissible then .ok (toCanonicalVec (.map frame.entries)) else .error .size

/-- The nested CPace message, which names its side a second time. -/
def decodeNested (outerSide : Side) (bytes : Bytes) : Except Error Frame := do
  match ← decodeCanonical bytes with
  | .array [version, role, share, associatedData] => do
    let nestedSide ← side role
    let associatedData ← orSchema associatedData.asBytes
    let version ← uint version
    if version ≠ 2 ∨ nestedSide ≠ outerSide ∨ associatedData = [] ∨ 256 < associatedData.length then
      .error .schema
    else do
      let share ← fixedBytes 32 share
      .ok (.cpace ⟨outerSide, share, associatedData⟩)
  | _ => .error .schema

def decodeKind (kind : Bytes) (entries : List (Value × Value)) : Except Error Frame :=
  if kind = ascii "cpace" ∧ entries.length = 4 then do
    let outerSide ← side (← field entries (.text (ascii "role")))
    let nested ← orSchema (← field entries (.text (ascii "message"))).asBytes
    decodeNested outerSide nested
  else if kind = ascii "finished" ∧ entries.length = 4 then do
    let side ← side (← field entries (.text (ascii "role")))
    let value ← fixedBytes 64 (← field entries (.text (ascii "value")))
    .ok (.finished side value)
  else if kind = ascii "sealed" ∧ entries.length = 5 then do
    let ciphertext ← orSchema (← field entries (.text (ascii "ciphertext"))).asBytes
    if ciphertext.length < 17 ∨ maxFrameCiphertext < ciphertext.length then .error .size
    else do
      let direction ← direction (← field entries (.text (ascii "direction")))
      let counter ← uint (← field entries (.text (ascii "counter")))
      .ok (.sealed direction (UInt64.ofNat counter) ciphertext)
  else .error .schema

def decodeFrame (input : Bytes) : Except Error Frame := do
  let value ← decodeCanonical input
  let entries ← mapEntries value
  let version ← uint (← field entries (.text (ascii "v")))
  let kind ← orSchema (← field entries (.text (ascii "kind"))).asText
  if version ≠ 2 then .error .schema
  else do
    let frame ← decodeKind kind entries
    let bytes ← encodeFrame frame
    if bytes ≠ input then .error .nonDeterministic else .ok frame

/-! ### The one encoding -/

namespace Frame

@[simp] theorem encodeFrame_eq_ok {f : Frame} {b : Bytes} :
    encodeFrame f = .ok b ↔ f.admissible = true ∧ toCanonicalVec (.map f.entries) = b := by
  unfold encodeFrame
  split_ifs with h <;> simp [h]

theorem encodeFrame_ok {f : Frame} (h : f.admissible = true) :
    encodeFrame f = .ok (toCanonicalVec (.map f.entries)) :=
  encodeFrame_eq_ok.mpr ⟨h, rfl⟩

theorem sideNumber_lt (s : Side) : sideNumber s < 2 := by cases s <;> decide

theorem directionNumber_lt (d : Direction) : directionNumber d < 2 := by cases d <;> decide

@[simp] theorem direction_integer (d : Direction) :
    direction (.integer (directionNumber d)) = .ok d := by
  cases d <;> rfl

theorem nested_plain {d : ℕ} {m : CpaceMessage} (h : m.admissible = true) :
    Plain (d + 2) m.nested := by
  have hside := sideNumber_lt m.side
  simp only [CpaceMessage.admissible, Bool.and_eq_true, decide_eq_true_eq] at h
  simp only [CpaceMessage.nested, Plain, List.forall_mem_cons, List.not_mem_nil, false_imp_iff,
    implies_true, and_true, Octets.length_val, List.length_cons, List.length_nil]
  omega

theorem nested_size_lt {m : CpaceMessage} (h : m.admissible = true) : size m.nested < 2 ^ 17 := by
  simp only [CpaceMessage.admissible, Bool.and_eq_true, decide_eq_true_eq] at h
  have hside : size (.integer (sideNumber m.side)) = 1 := by cases m.side <;> rfl
  have htwo : size (.integer 2) = 1 := rfl
  have hhead : headSize m.associatedData.length ≤ 3 := by
    unfold headSize
    split_ifs <;> omega
  rw [CpaceMessage.nested, size_array]
  simp only [List.map_cons, List.map_nil, List.sum_cons, List.sum_nil, size_bytes, hside, htwo,
    Octets.length_val, List.length_cons, List.length_nil]
  have h32 : headSize 32 = 2 := rfl
  have h4 : headSize 4 = 1 := rfl
  simp only [h32, h4, zero_add, Nat.reduceAdd]
  omega

theorem plain_entries {f : Frame} (h : f.admissible = true) : Plain maxDepth (.map f.entries) := by
  cases f with
  | cpace m =>
    have hsize := nested_size_lt h
    have hside := sideNumber_lt m.side
    refine ⟨by simp [entries], by simp only [entries, List.map]; decide, ?_⟩
    simp only [entries, List.forall_mem_cons, List.not_mem_nil, false_imp_iff, implies_true,
      and_true, Plain, toCanonicalVec_length]
    refine ⟨⟨by decide, by omega⟩, ⟨by decide, by decide⟩, ⟨by decide, by omega⟩, by decide,
      by omega⟩
  | finished side value =>
    have hside := sideNumber_lt side
    refine ⟨by simp [entries], by simp only [entries, List.map]; decide, ?_⟩
    simp only [entries, List.forall_mem_cons, List.not_mem_nil, false_imp_iff, implies_true,
      and_true, Plain, Octets.length_val]
    refine ⟨⟨by decide, by omega⟩, ⟨by decide, by decide⟩, ⟨by decide, by omega⟩, by decide,
      by omega⟩
  | sealed direction counter ciphertext =>
    have hdir := directionNumber_lt direction
    have hcounter := counter.toNat_lt
    have hlen : ciphertext.length ≤ 69572 := by
      simp only [admissible, maxFrameCiphertext, Bool.and_eq_true, decide_eq_true_eq] at h
      exact of_decide_eq_true h.2
    refine ⟨by simp [entries], by simp only [entries, List.map]; decide, ?_⟩
    simp only [entries, List.forall_mem_cons, List.not_mem_nil, false_imp_iff, implies_true,
      and_true, Plain]
    refine ⟨⟨by decide, by omega⟩, ⟨by decide, by decide⟩, ⟨by decide, by omega⟩,
      ⟨by decide, by omega⟩, by decide, by omega⟩

theorem decodeNested_toCanonicalVec {m : CpaceMessage} (h : m.admissible = true) :
    decodeNested m.side (toCanonicalVec m.nested) = .ok (.cpace m) := by
  have hread := decodeCanonical_toCanonicalVec (v := m.nested) (nested_plain h)
  have htwo : uint (.integer 2) = .ok 2 := uint_integer (n := 2) (by decide)
  have hfix : canonical m.nested = m.nested := rfl
  simp only [CpaceMessage.admissible, Bool.and_eq_true, decide_eq_true_eq] at h
  have hbounds : ¬(2 ≠ 2 ∨ m.side ≠ m.side ∨ m.associatedData = [] ∨
      256 < m.associatedData.length) := by
    have hne : m.associatedData ≠ [] := List.ne_nil_of_length_pos h.1
    simp only [ne_eq, not_true_eq_false, hne, false_or]
    omega
  unfold decodeNested
  rw [hread, hfix, Calls.ok_bind]
  simp only [CpaceMessage.nested, side_integer, Calls.ok_bind, Value.asBytes, orSchema_some, htwo,
    fixedBytes_bytes]
  rw [if_neg hbounds]

/-- What the frame encoder writes, the frame recogniser reads back. -/
theorem decodeFrame_of_encodeFrame {f : Frame} {b : Bytes} (h : encodeFrame f = .ok b) :
    decodeFrame b = .ok f := by
  obtain ⟨hadm, rfl⟩ := encodeFrame_eq_ok.mp h
  have hplain := plain_entries hadm
  have htwo : uint (.integer 2) = .ok 2 := uint_integer (n := 2) (by decide)
  have hlength := canonicalMap_length f.entries
  suffices hkind : ∃ kind, lookup (.text (ascii "v")) f.entries = some (.integer 2) ∧
      lookup (.text (ascii "kind")) f.entries = some (.text kind) ∧
      decodeKind kind (canonicalMap f.entries) = .ok f by
    obtain ⟨kind, hv, hk, hread⟩ := hkind
    have hv := field_canonicalMap hplain _ hv
    have hk := field_canonicalMap hplain _ hk
    unfold decodeFrame
    rw [decodeCanonical_map hplain, Calls.ok_bind, mapEntries_map, Calls.ok_bind, hv,
      Calls.ok_bind, canonical, htwo, Calls.ok_bind, hk, Calls.ok_bind, canonical, Value.asText,
      orSchema_some, Calls.ok_bind, if_neg (by decide), hread, Calls.ok_bind, h, Calls.ok_bind,
      if_neg (by simp)]
  cases f with
  | cpace m =>
    refine ⟨ascii "cpace", rfl, rfl, ?_⟩
    have hrole := field_canonicalMap hplain (.text (ascii "role")) rfl
    have hmessage := field_canonicalMap hplain (.text (ascii "message")) rfl
    rw [decodeKind, if_pos ⟨rfl, hlength⟩, hrole, Calls.ok_bind, canonical, side_integer,
      Calls.ok_bind, hmessage, Calls.ok_bind, canonical, Value.asBytes, orSchema_some,
      Calls.ok_bind]
    exact decodeNested_toCanonicalVec hadm
  | finished side value =>
    refine ⟨ascii "finished", rfl, rfl, ?_⟩
    have hrole := field_canonicalMap hplain (.text (ascii "role")) rfl
    have hvalue := field_canonicalMap hplain (.text (ascii "value")) rfl
    rw [decodeKind, if_neg fun h => absurd h.1 (by decide), if_pos ⟨rfl, hlength⟩, hrole,
      Calls.ok_bind, canonical, side_integer, Calls.ok_bind, hvalue, Calls.ok_bind, canonical, fixedBytes_bytes,
      Calls.ok_bind]
  | sealed direction counter ciphertext =>
    refine ⟨ascii "sealed", rfl, rfl, ?_⟩
    have hdirection := field_canonicalMap hplain (.text (ascii "direction")) rfl
    have hcounter := field_canonicalMap hplain (.text (ascii "counter")) rfl
    have hciphertext := field_canonicalMap hplain (.text (ascii "ciphertext")) rfl
    simp only [admissible, Bool.and_eq_true, decide_eq_true_eq] at hadm
    rw [decodeKind, if_neg fun h => absurd h.1 (by decide), if_neg fun h => absurd h.1 (by decide),
      if_pos ⟨rfl, hlength⟩, hciphertext, Calls.ok_bind, canonical, Value.asBytes, orSchema_some, Calls.ok_bind, if_neg (by omega),
      hdirection, Calls.ok_bind, canonical, direction_integer, Calls.ok_bind, hcounter,
      Calls.ok_bind, canonical, uint_integer counter.toNat_lt, Calls.ok_bind, UInt64.ofNat_toNat]

/-- What the frame recogniser admits is the encoding of its result. -/
theorem encodeFrame_of_decodeFrame {f : Frame} {b : Bytes} (h : decodeFrame b = .ok f) :
    encodeFrame f = .ok b := by
  unfold decodeFrame at h
  simp only [Calls.except_bind_eq_ok] at h
  obtain ⟨_, -, _, -, _, -, _, -, _, -, _, -, h⟩ := h
  split_ifs at h
  simp only [Calls.except_bind_eq_ok] at h
  obtain ⟨frame, -, bytes, hbytes, h⟩ := h
  split_ifs at h with hne
  cases h
  rw [hbytes, not_not.mp hne]

theorem encodeFrame_injective {f g : Frame} {b : Bytes} (hf : encodeFrame f = .ok b)
    (hg : encodeFrame g = .ok b) : f = g := by
  have h := (decodeFrame_of_encodeFrame hf).symm.trans (decodeFrame_of_encodeFrame hg)
  exact Except.ok.inj h

/-- The octets of a sealed frame around its ciphertext. -/
theorem sealed_length (d : Direction) (counter : UInt64) (ciphertext : Bytes) :
    (toCanonicalVec (.map (sealed d counter ciphertext).entries)).length =
      46 + headSize counter.toNat + headSize ciphertext.length + ciphertext.length := by
  have hkeys : [size (.text (ascii "v")), size (.text (ascii "kind")), size (.text (ascii "sealed")),
      size (.text (ascii "direction")), size (.text (ascii "counter")),
      size (.text (ascii "ciphertext")), size (.integer 2)] = [2, 5, 7, 10, 8, 11, 1] := by decide
  simp only [List.cons.injEq, and_true] at hkeys
  obtain ⟨hv, hkind, hsealed, hdirection, hcounter, hciphertext, htwo⟩ := hkeys
  have hd : size (.integer (directionNumber d)) = 1 := by cases d <;> rfl
  have h5 : headSize 5 = 1 := rfl
  rw [toCanonicalVec_length, size_map]
  simp only [entries, List.map_cons, List.map_nil, List.sum_cons, List.sum_nil, hv, hkind, hsealed,
    hdirection, hcounter, hciphertext, htwo, hd, size_integer_ofNat, size_bytes, List.length_cons,
    List.length_nil, zero_add, Nat.reduceAdd, h5]
  omega

end Frame
end CredentialV2
end CbclPairing
