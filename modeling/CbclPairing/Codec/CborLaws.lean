import CbclPairing.Codec.Cbor

/-! Laws of deterministic CBOR: sizes, the round trip of the deterministic
encoding, and lookups that do not depend on the order of a map's entries. -/
namespace Codec
namespace Cbor

/-! ### Equations -/

@[simp] theorem encodeItems_eq (items : List Value) : encodeItems items = items.flatMap encode := by
  induction items with
  | nil => rfl
  | cons x xs ih => simp [encodeItems, ih]

def entryBytes (e : Value × Value) : List UInt8 := encode e.1 ++ encode e.2

@[simp] theorem encodeEntries_eq (entries : List (Value × Value)) :
    encodeEntries entries = entries.flatMap entryBytes := by
  induction entries with
  | nil => rfl
  | cons e es ih =>
    obtain ⟨k, v⟩ := e
    simp [encodeEntries, encodeEntry, entryBytes, ih]

def canonicalPair (e : Value × Value) : Value × Value := (canonical e.1, canonical e.2)

@[simp] theorem canonicalItems_eq (items : List Value) :
    canonicalItems items = items.map canonical := by
  induction items with
  | nil => rfl
  | cons x xs ih => simp [canonicalItems, ih]

@[simp] theorem canonicalEntries_eq (entries : List (Value × Value)) :
    canonicalEntries entries = entries.map canonicalPair := by
  induction entries with
  | nil => rfl
  | cons e es ih =>
    obtain ⟨k, v⟩ := e
    simp [canonicalEntries, canonicalEntry, canonicalPair, ih]

/-- The entries of a map in canonical form. -/
def canonicalMap (entries : List (Value × Value)) : List (Value × Value) :=
  sortEntries (entries.map canonicalPair)

theorem canonical_map (entries : List (Value × Value)) :
    canonical (.map entries) = .map (canonicalMap entries) := by
  simp [canonical, canonicalMap]

theorem canonical_array (items : List Value) :
    canonical (.array items) = .array (items.map canonical) := by
  simp [canonical]

theorem canonical_array_eq {items : List Value} (h : ∀ x ∈ items, canonical x = x) :
    canonical (.array items) = .array items := by
  rw [canonical_array, List.map_congr_left h, List.map_id']

theorem sortEntries_perm (entries : List (Value × Value)) :
    (sortEntries entries).Perm entries :=
  List.perm_insertionSort keyLe entries

@[simp] theorem canonicalMap_length (entries : List (Value × Value)) :
    (canonicalMap entries).length = entries.length := by
  rw [canonicalMap, (sortEntries_perm _).length_eq, List.length_map]

instance : Std.Total keyLe := ⟨fun a _ => le_total ((encode a.1).map UInt8.toNat) _⟩

instance : IsTrans (Value × Value) keyLe := 
  ⟨fun a _ _ h k => le_trans (a := (encode a.1).map UInt8.toNat) h k⟩

theorem sortEntries_idem (entries : List (Value × Value)) :
    sortEntries (sortEntries entries) = sortEntries entries :=
  (List.pairwise_insertionSort keyLe entries).insertionSort_eq

theorem canonical_canonical (v : Value) : canonical (canonical v) = canonical v := by
  induction v using Value.induction with
  | integer | bytes | text | bool | null | float => rfl
  | tag t item ih => simp only [canonical, ih]
  | array items ih =>
    rw [canonical_array, canonical_array, List.map_map]
    congr 1
    exact List.map_congr_left ih
  | map entries ih =>
    rw [canonical_map, canonical_map]
    congr 1
    have hfix : (canonicalMap entries).map canonicalPair = canonicalMap entries := by
      refine (List.map_congr_left fun e he => ?_).trans (List.map_id _)
      obtain ⟨e', he', rfl⟩ := List.mem_map.mp ((sortEntries_perm _).mem_iff.mp he)
      simp [canonicalPair, (ih e' he').1, (ih e' he').2]
    rw [canonicalMap, hfix]
    exact sortEntries_idem _

@[simp] theorem toCanonicalVec_canonical (v : Value) :
    toCanonicalVec (canonical v) = toCanonicalVec v := by
  simp [toCanonicalVec, canonical_canonical]

/-! ### Sizes -/

@[simp] theorem head_length (major n : ℕ) : (head major n).length = headSize n := by
  unfold head headSize
  split_ifs <;> simp

theorem headSize_pos (n : ℕ) : 0 < headSize n := by
  unfold headSize
  split_ifs <;> simp

theorem headSize_le {n bound : ℕ} (h : n ≤ bound) : headSize n ≤ headSize bound := by
  unfold headSize
  split_ifs <;> omega

/-- The number of octets of the deterministic encoding. -/
def size (v : Value) : ℕ := (toCanonicalVec v).length

@[simp] theorem toCanonicalVec_length (v : Value) : (toCanonicalVec v).length = size v := rfl

@[simp] theorem size_bytes (b : List UInt8) : size (.bytes b) = headSize b.length + b.length := by
  simp [size, toCanonicalVec, canonical, encode]

@[simp] theorem size_text (s : List UInt8) : size (.text s) = headSize s.length + s.length := by
  simp [size, toCanonicalVec, canonical, encode]

@[simp] theorem size_integer_ofNat (n : ℕ) : size (.integer n) = headSize n := by
  simp [size, toCanonicalVec, canonical, encode]

@[simp] theorem size_null : size .null = 1 := rfl

theorem size_array (items : List Value) :
    size (.array items) = headSize items.length + (items.map size).sum := by
  rw [size, toCanonicalVec, canonical_array, encode, encodeItems_eq, List.length_append,
    head_length, List.length_map, List.flatMap_map, List.length_flatMap]
  rfl

theorem size_map (entries : List (Value × Value)) :
    size (.map entries) =
      headSize entries.length + (entries.map fun e => size e.1 + size e.2).sum := by
  rw [size, toCanonicalVec, canonical_map, encode, encodeEntries_eq, List.length_append,
    head_length, canonicalMap_length, List.length_flatMap]
  congr 1
  have hperm := (sortEntries_perm (entries.map canonicalPair)).map fun e => (entryBytes e).length
  rw [canonicalMap, hperm.sum_nat, List.map_map]
  congr 1
  refine List.map_congr_left fun e _ => ?_
  simp [entryBytes, canonicalPair, size, toCanonicalVec]

/-! ### Round trip -/

/-- Items nested at most `d` deep, without tags and floats, whose lengths fit
the encoding and whose maps hold distinct keys. -/
def Plain : ℕ → Value → Prop
  | 0, _ => False
  | _ + 1, .integer n => -2 ^ 64 ≤ n ∧ n < 2 ^ 64
  | _ + 1, .bytes b => b.length < 2 ^ 64
  | _ + 1, .text s => s.length < 2 ^ 64 ∧ validUtf8 s = true
  | d + 1, .array items => items.length < 2 ^ 64 ∧ ∀ x ∈ items, Plain d x
  | d + 1, .map entries => entries.length < 2 ^ 64 ∧
      (entries.map fun e => toCanonicalVec e.1).Nodup ∧
      ∀ e ∈ entries, Plain d e.1 ∧ Plain d e.2
  | _ + 1, .bool _ => True
  | _ + 1, .null => True
  | _ + 1, .tag _ _ => False
  | _ + 1, .float _ => False

theorem plain_bytes {d n : ℕ} (x : Octets n) (h : n < 2 ^ 64) : Plain (d + 1) (.bytes x.val) := by
  simpa [Plain] using h

theorem plain_nat {d n : ℕ} (h : n < 2 ^ 64) : Plain (d + 1) (.integer n) := by
  unfold Plain
  omega

theorem plain_array {d : ℕ} {items : List Value} (hlength : items.length < 2 ^ 64)
    (h : ∀ x ∈ items, Plain d x) : Plain (d + 1) (.array items) := ⟨hlength, h⟩

private theorem initial_octet {major ai : ℕ} (hm : major < 7) (ha : ai < 32) :
    (UInt8.ofNat (major * 32 + ai)).toNat / 32 = major ∧
      (UInt8.ofNat (major * 32 + ai)).toNat % 32 = ai := by
  have hlt : major * 32 + ai < 256 := by omega
  rw [UInt8.toNat_ofNat', Nat.mod_eq_of_lt hlt]
  omega

/-- Reading an initial octet and the argument that follows it. -/
private theorem decodeItem_octet {d major ai n : ℕ} (hm : major < 7) (ha : ai < 32)
    {arg rest : List UInt8} (harg : argument ai (arg ++ rest) = .ok (n, rest)) :
    decodeItem (d + 1) (UInt8.ofNat (major * 32 + ai) :: (arg ++ rest)) =
      payload (decodeItem d) major n rest := by
  obtain ⟨hmajor, hai⟩ := initial_octet hm ha
  rw [decodeItem, Cursor.run_bind_ok (Cursor.byte_cons _ _ _), if_neg (by omega), hmajor, hai,
    Cursor.run_bind_ok harg]

theorem decodeItem_head {d major n : ℕ} (hm : major < 7) (hn : n < 2 ^ 64) (rest : List UInt8) :
    decodeItem (d + 1) (head major n ++ rest) = payload (decodeItem d) major n rest := by
  unfold head
  split_ifs with h1 h2 h3 h4
  · have harg : argument n ([] ++ rest) = .ok (n, rest) := by simp [argument, h1]
    exact decodeItem_octet hm (by omega) harg
  · exact decodeItem_octet hm (by omega) (Cursor.uint_append (by omega) rest)
  · exact decodeItem_octet hm (by omega) (Cursor.uint_append (by omega) rest)
  · exact decodeItem_octet hm (by omega) (Cursor.uint_append (by omega) rest)
  · exact decodeItem_octet hm (by omega) (Cursor.uint_append (by omega) rest)

/-- The recogniser reads back every encoded item. -/
theorem decodeItem_encode {d : ℕ} {v : Value} (h : Plain d v) (rest : List UInt8) :
    decodeItem d (encode v ++ rest) = .ok (v, rest) := by
  induction d generalizing v rest with
  | zero => exact absurd h (by simp [Plain])
  | succ d ih =>
    cases v with
    | integer n =>
      obtain ⟨hlo, hhi⟩ := h
      rw [encode]
      split_ifs with hn
      · rw [decodeItem_head (by omega) (by omega)]
        simp [payload, Int.toNat_of_nonneg hn]
      · rw [decodeItem_head (by omega) (by omega)]
        have hneg : (((-1 - n).toNat : ℕ) : ℤ) = -1 - n := Int.toNat_of_nonneg (by omega)
        simp [payload, hneg]
    | bytes b =>
      rw [encode, List.append_assoc, decodeItem_head (by omega) h]
      exact Cursor.run_map_ok (Cursor.take_append rfl)
    | text s =>
      rw [encode, List.append_assoc, decodeItem_head (by omega) h.1]
      simp only [payload]
      rw [Cursor.run_bind_ok (Cursor.take_append rfl), if_pos h.2]
      rfl
    | array items =>
      rw [encode, List.append_assoc, decodeItem_head (by omega) h.1, encodeItems_eq]
      exact Cursor.run_map_ok (Cursor.times_flatMap (fun x hx rest => ih (h.2 x hx) rest) rest)
    | map entries =>
      rw [encode, List.append_assoc, decodeItem_head (by omega) h.1, encodeEntries_eq]
      refine Cursor.run_map_ok (Cursor.times_flatMap (fun e he rest => ?_) rest)
      obtain ⟨hk, hv⟩ := h.2.2 e he
      rw [entryBytes, List.append_assoc, Cursor.run_bind_ok (ih hk _),
        Cursor.run_bind_ok (ih hv _)]
      rfl
    | tag t item => exact absurd h (by simp [Plain])
    | bool b => cases b <;> rfl
    | null => rfl
    | float bits => exact absurd h (by simp [Plain])

theorem plain_canonical {d : ℕ} {v : Value} (h : Plain d v) : Plain d (canonical v) := by
  induction d generalizing v with
  | zero => exact absurd h (by simp [Plain])
  | succ d ih =>
    cases v with
    | integer | bytes | text | bool | null => exact h
    | tag | float => exact absurd h (by simp [Plain])
    | array items =>
      rw [canonical_array]
      refine ⟨by simpa using h.1, fun x hx => ?_⟩
      obtain ⟨y, hy, rfl⟩ := List.mem_map.mp hx
      exact ih (h.2 y hy)
    | map entries =>
      rw [canonical_map]
      have hperm := sortEntries_perm (entries.map canonicalPair)
      refine ⟨by simpa using h.1, ?_, fun e he => ?_⟩
      · rw [canonicalMap, (hperm.map _).nodup_iff, List.map_map]
        refine (List.map_congr_left fun e _ => ?_) ▸ h.2.1
        simp [canonicalPair]
      · obtain ⟨e', he', rfl⟩ := List.mem_map.mp (hperm.mem_iff.mp he)
        exact ⟨ih (h.2.2 e' he').1, ih (h.2.2 e' he').2⟩

theorem duplicateInItems_eq_false {items : List Value}
    (h : ∀ x ∈ items, hasDuplicateKey x = false) : duplicateInItems items = false := by
  induction items with
  | nil => rfl
  | cons x xs ih =>
    simp only [List.mem_cons, forall_eq_or_imp] at h
    simp [duplicateInItems, h.1, ih h.2]

theorem duplicateInEntries_eq_false {entries : List (Value × Value)}
    (h : ∀ e ∈ entries, hasDuplicateKey e.1 = false ∧ hasDuplicateKey e.2 = false) :
    duplicateInEntries entries = false := by
  induction entries with
  | nil => rfl
  | cons e es ih =>
    obtain ⟨k, v⟩ := e
    simp only [List.mem_cons, forall_eq_or_imp] at h
    simp [duplicateInEntries, duplicateInEntry, h.1, ih h.2]

theorem hasDuplicateKey_eq_false {d : ℕ} {v : Value} (h : Plain d v) :
    hasDuplicateKey v = false := by
  induction d generalizing v with
  | zero => exact absurd h (by simp [Plain])
  | succ d ih =>
    cases v with
    | integer | bytes | text | bool | null => rfl
    | tag | float => exact absurd h (by simp [Plain])
    | array items => exact duplicateInItems_eq_false fun x hx => ih (h.2 x hx)
    | map entries =>
      have hrest := duplicateInEntries_eq_false fun e he => ⟨ih (h.2.2 e he).1, ih (h.2.2 e he).2⟩
      simp [hasDuplicateKey, h.2.1, hrest]

/-- What the deterministic encoder writes, the recogniser admits. -/
theorem decodeCanonical_toCanonicalVec {v : Value} (h : Plain maxDepth v) :
    decodeCanonical (toCanonicalVec v) = .ok (canonical v) := by
  have hplain := plain_canonical h
  have hread : decodeItem maxDepth (toCanonicalVec v) = .ok (canonical v, []) := by
    have h := decodeItem_encode hplain []
    rwa [List.append_nil] at h
  simp [decodeCanonical, hread, hasDuplicateKey_eq_false hplain]

/-- Items with one deterministic encoding are one canonical item. -/
theorem canonical_eq_of_toCanonicalVec_eq {d : ℕ} {v w : Value} (hv : Plain d v) (hw : Plain d w)
    (h : toCanonicalVec v = toCanonicalVec w) : canonical v = canonical w := by
  have hread := decodeItem_encode (plain_canonical hv) []
  have hread' := decodeItem_encode (plain_canonical hw) []
  rw [toCanonicalVec, toCanonicalVec] at h
  rw [h] at hread
  exact congrArg Prod.fst (Except.ok.inj (hread.symm.trans hread'))

/-- What the recogniser admits is the deterministic encoding of its result. -/
theorem toCanonicalVec_of_decodeCanonical {input : List UInt8} {v : Value}
    (h : decodeCanonical input = .ok v) : toCanonicalVec v = input := by
  unfold decodeCanonical at h
  split at h
  · cases h
  · split_ifs at h with h1 h2 h3
    cases h
    exact not_not.mp h3

/-! ### Lookups -/

theorem asUint_eq_some {v : Value} {n : ℕ} (h : v.asUint = some n) : v = .integer n := by
  cases v with
  | integer i =>
    simp only [Value.asUint, Option.ite_none_right_eq_some, Option.some.injEq] at h
    obtain ⟨hi, hn⟩ := h
    rw [← hn, Int.toNat_of_nonneg hi.1]
  | bytes | text | array | map | tag | bool | null | float => cases h

theorem asText_eq_some {v : Value} {s : List UInt8} (h : v.asText = some s) : v = .text s := by
  cases v with
  | text t => exact congrArg Value.text (Option.some.inj h)
  | integer | bytes | array | map | tag | bool | null | float => cases h

theorem sameKey_iff {a b : Value} : a.sameKey b = true ↔
    (∃ n, a = .integer n ∧ b = .integer n) ∨ ∃ s, a = .text s ∧ b = .text s := by
  cases a <;> cases b <;> simp only [Value.sameKey, beq_iff_eq] <;> aesop

theorem eq_of_sameKey {a b : Value} (h : a.sameKey b = true) : a = b := by
  rcases sameKey_iff.mp h with ⟨n, rfl, rfl⟩ | ⟨s, rfl, rfl⟩ <;> rfl

@[simp] theorem canonical_sameKey (a key : Value) :
    (canonical a).sameKey key = a.sameKey key := by
  cases a <;> cases key <;> simp [canonical, Value.sameKey]

theorem lookup_perm {key : Value} {es fs : List (Value × Value)} (hperm : es.Perm fs)
    (hnodup : (es.map fun e => toCanonicalVec e.1).Nodup) : lookup key es = lookup key fs := by
  induction hperm with
  | nil => rfl
  | cons e _ ih =>
    have ih := ih (by simpa using (List.nodup_cons.mp (by simpa using hnodup)).2)
    simp only [lookup, List.find?_cons] at ih ⊢
    split
    · rfl
    · exact ih
  | swap a b l =>
    have hne : ¬(b.1.sameKey key = true ∧ a.1.sameKey key = true) := by
      rintro ⟨hb, ha⟩
      have heq : b.1 = a.1 := (eq_of_sameKey hb).trans (eq_of_sameKey ha).symm
      simp [heq] at hnodup
    simp only [lookup, List.find?_cons]
    split <;> split <;> simp_all
  | trans h₁ _ ih₁ ih₂ => exact (ih₁ hnodup).trans (ih₂ ((h₁.map _).nodup_iff.mp hnodup))

theorem lookup_map_canonicalPair (key : Value) (entries : List (Value × Value)) :
    lookup key (entries.map canonicalPair) = (lookup key entries).map canonical := by
  induction entries with
  | nil => rfl
  | cons e es ih =>
    simp only [lookup, List.map_cons, List.find?_cons, canonicalPair, canonical_sameKey] at ih ⊢
    split
    · rfl
    · exact ih

/-- Looking a key up in the canonical form of a map with distinct keys. -/
theorem lookup_canonicalMap {d : ℕ} {entries : List (Value × Value)}
    (h : Plain d (.map entries)) (key : Value) :
    lookup key (canonicalMap entries) = (lookup key entries).map canonical := by
  cases d with
  | zero => exact absurd h (by simp [Plain])
  | succ d =>
    have hnodup : ((entries.map canonicalPair).map fun e => toCanonicalVec e.1).Nodup := by
      rw [List.map_map]
      refine (List.map_congr_left fun e _ => ?_) ▸ h.2.1
      simp [canonicalPair]
    rw [← lookup_map_canonicalPair]
    exact (lookup_perm (sortEntries_perm _).symm hnodup).symm

/-! ### ASCII text -/

def isAscii (s : List UInt8) : Bool := s.all fun b => b.toNat < 128

theorem validUtf8_of_isAscii {s : List UInt8} (h : isAscii s = true) : validUtf8 s = true := by
  have hfold : s.foldl utf8Step (some (0, 0, 0)) = some (0, 0, 0) := by
    induction s with
    | nil => rfl
    | cons b s ih =>
      simp only [isAscii, List.all_cons, Bool.and_eq_true, decide_eq_true_eq] at h ih
      have hb : utf8Step (some (0, 0, 0)) b = some (0, 0, 0) := by simp [utf8Step, h.1]
      rw [List.foldl_cons, hb]
      exact ih h.2
  simp [validUtf8, hfold]

end Cbor
end Codec
