import CbclPairing.Codec.CborLaws

/-! The deterministic encoder as a partial function. An integer, a length or a
tag that does not fit a CBOR argument has no encoding, and neither has a map
that holds one key twice. The order in which a map is written down does not
matter. -/
namespace Codec
namespace Cbor

mutual

/-- Every integer, length and tag below fits the argument of its initial octet. -/
def encodable : Value → Bool
  | .integer n => decide (-2 ^ 64 ≤ n ∧ n < 2 ^ 64)
  | .bytes b => decide (b.length < 2 ^ 64)
  | .text s => decide (s.length < 2 ^ 64)
  | .array items => decide (items.length < 2 ^ 64) && encodableItems items
  | .map entries => decide (entries.length < 2 ^ 64) && encodableEntries entries
  | .tag t item => decide (t < 2 ^ 64) && encodable item
  | .bool _ | .null => true
  | .float bits => decide (bits < 2 ^ 64)
  termination_by structural v => v

def encodableItems : List Value → Bool
  | [] => true
  | x :: xs => encodable x && encodableItems xs
  termination_by structural xs => xs

def encodableEntries : List (Value × Value) → Bool
  | [] => true
  | e :: es => encodableEntry e && encodableEntries es
  termination_by structural es => es

def encodableEntry : Value × Value → Bool
  | (k, v) => encodable k && encodable v
  termination_by structural e => e

end

/-- The deterministic encoding, when there is one. -/
def canonicalVec? (v : Value) : Option (List UInt8) :=
  if encodable v = true ∧ hasDuplicateKey v = false then some (toCanonicalVec v) else none

theorem canonicalVec?_eq_some {v : Value} {b : List UInt8} :
    canonicalVec? v = some b ↔
      (encodable v = true ∧ hasDuplicateKey v = false) ∧ toCanonicalVec v = b := by
  unfold canonicalVec?
  by_cases h : encodable v = true ∧ hasDuplicateKey v = false
  · rw [if_pos h, Option.some.injEq]
    constructor
    · intro hb
      exact ⟨h, hb⟩
    · intro hb
      exact hb.2
  · rw [if_neg h]
    constructor
    · intro hb
      cases hb
    · intro hb
      exact absurd hb.1 h

/-! ### Round trip -/

/-- Items nested at most `d` deep, without tags and floats, whose texts are UTF-8. -/
def Textual : ℕ → Value → Prop
  | 0, _ => False
  | _ + 1, .text s => validUtf8 s = true
  | d + 1, .array items => ∀ x ∈ items, Textual d x
  | d + 1, .map entries => ∀ e ∈ entries, Textual d e.1 ∧ Textual d e.2
  | _ + 1, .integer _ => True
  | _ + 1, .bytes _ => True
  | _ + 1, .bool _ => True
  | _ + 1, .null => True
  | _ + 1, .tag _ _ => False
  | _ + 1, .float _ => False

theorem encodableItems_eq_true {items : List Value} :
    encodableItems items = true ↔ ∀ x ∈ items, encodable x = true := by
  induction items with
  | nil => simp [encodableItems]
  | cons x xs ih => simp [encodableItems, ih]

theorem encodableEntries_eq_true {entries : List (Value × Value)} :
    encodableEntries entries = true ↔
      ∀ e ∈ entries, encodable e.1 = true ∧ encodable e.2 = true := by
  induction entries with
  | nil => simp [encodableEntries]
  | cons e es ih =>
    obtain ⟨k, v⟩ := e
    simp [encodableEntries, encodableEntry, ih]

theorem duplicateInItems_mem {items : List Value} (h : duplicateInItems items = false) :
    ∀ x ∈ items, hasDuplicateKey x = false := by
  induction items with
  | nil => simp
  | cons x xs ih =>
    simp only [duplicateInItems, Bool.or_eq_false_iff] at h
    exact List.forall_mem_cons.mpr ⟨h.1, ih h.2⟩

theorem duplicateInEntries_mem {entries : List (Value × Value)}
    (h : duplicateInEntries entries = false) :
    ∀ e ∈ entries, hasDuplicateKey e.1 = false ∧ hasDuplicateKey e.2 = false := by
  induction entries with
  | nil => simp
  | cons e es ih =>
    obtain ⟨k, v⟩ := e
    simp only [duplicateInEntries, duplicateInEntry, Bool.or_eq_false_iff] at h
    exact List.forall_mem_cons.mpr ⟨h.1, ih h.2⟩

theorem hasDuplicateKey_map {entries : List (Value × Value)} :
    hasDuplicateKey (.map entries) = false ↔
      (entries.map fun e => toCanonicalVec e.1).Nodup ∧ duplicateInEntries entries = false := by
  simp [hasDuplicateKey]

theorem plain_of_encodable {d : ℕ} {v : Value} (he : encodable v = true)
    (hd : hasDuplicateKey v = false) (ht : Textual d v) : Plain d v := by
  induction d generalizing v with
  | zero => exact absurd ht (by simp [Textual])
  | succ d ih =>
    cases v with
    | integer n => simpa only [encodable, Plain, decide_eq_true_eq] using he
    | bytes b => simpa only [encodable, Plain, decide_eq_true_eq] using he
    | text s =>
      simp only [encodable, decide_eq_true_eq] at he
      exact ⟨he, ht⟩
    | array items =>
      simp only [encodable, Bool.and_eq_true, decide_eq_true_eq, encodableItems_eq_true] at he
      have hd := duplicateInItems_mem hd
      exact ⟨he.1, fun x hx => ih (he.2 x hx) (hd x hx) (ht x hx)⟩
    | map entries =>
      simp only [encodable, Bool.and_eq_true, decide_eq_true_eq, encodableEntries_eq_true] at he
      obtain ⟨hkeys, hd⟩ := hasDuplicateKey_map.mp hd
      have hd := duplicateInEntries_mem hd
      refine ⟨he.1, hkeys, fun e hmem => ⟨?_, ?_⟩⟩
      · exact ih (he.2 e hmem).1 (hd e hmem).1 (ht e hmem).1
      · exact ih (he.2 e hmem).2 (hd e hmem).2 (ht e hmem).2
    | bool | null => trivial
    | tag | float => exact absurd ht (by simp [Textual])

theorem encodable_of_plain {d : ℕ} {v : Value} (h : Plain d v) : encodable v = true := by
  induction d generalizing v with
  | zero => exact absurd h (by simp [Plain])
  | succ d ih =>
    cases v with
    | integer n => simpa only [encodable, Plain, decide_eq_true_eq] using h
    | bytes b => simpa only [encodable, Plain, decide_eq_true_eq] using h
    | text s => simpa only [encodable, decide_eq_true_eq] using h.1
    | array items =>
      simp only [encodable, Bool.and_eq_true, decide_eq_true_eq, encodableItems_eq_true]
      exact ⟨h.1, fun x hx => ih (h.2 x hx)⟩
    | map entries =>
      simp only [encodable, Bool.and_eq_true, decide_eq_true_eq, encodableEntries_eq_true]
      exact ⟨h.1, fun e he => ⟨ih (h.2.2 e he).1, ih (h.2.2 e he).2⟩⟩
    | bool | null => rfl
    | tag | float => exact absurd h (by simp [Plain])

/-- Every plain item has an encoding. -/
theorem canonicalVec?_of_plain {d : ℕ} {v : Value} (h : Plain d v) :
    canonicalVec? v = some (toCanonicalVec v) :=
  canonicalVec?_eq_some.mpr ⟨⟨encodable_of_plain h, hasDuplicateKey_eq_false h⟩, rfl⟩

/-- Reading an encoded item gives back its canonical form, and nothing else. -/
theorem decodeItem_canonicalVec? {v w : Value} {b : List UInt8} (hb : canonicalVec? v = some b)
    (ht : Textual maxDepth v) (hw : decodeItem maxDepth b = .ok (w, [])) : w = canonical v := by
  obtain ⟨⟨he, hd⟩, rfl⟩ := canonicalVec?_eq_some.mp hb
  have hread := decodeItem_encode (plain_canonical (plain_of_encodable he hd ht)) []
  rw [List.append_nil] at hread
  have hpair := Except.ok.inj (hw.symm.trans hread)
  exact congrArg Prod.fst hpair

/-! ### Maps as sets of entries -/

theorem canonicalMap_perm {es fs : List (Value × Value)} (hperm : es.Perm fs)
    (hkeys : (es.map fun e => toCanonicalVec e.1).Nodup) : canonicalMap es = canonicalMap fs := by
  have hsorted := (sortEntries_perm (es.map canonicalPair)).trans
    ((hperm.map canonicalPair).trans (sortEntries_perm (fs.map canonicalPair)).symm)
  -- Two entries that precede each other have one key, hence are one entry.
  have hone : ∀ a b, a ∈ canonicalMap es → b ∈ canonicalMap fs → keyLe a b → keyLe b a → a = b := by
    intro a b ha hb hab hba
    obtain ⟨e, he, rfl⟩ := List.mem_map.mp ((sortEntries_perm _).mem_iff.mp ha)
    obtain ⟨f, hf, rfl⟩ := List.mem_map.mp ((sortEntries_perm _).mem_iff.mp hb)
    have hf := hperm.mem_iff.mpr hf
    have hkey : toCanonicalVec e.1 = toCanonicalVec f.1 := by
      have hmap := le_antisymm (a := (toCanonicalVec e.1).map UInt8.toNat) hab hba
      exact (List.map_injective_iff.mpr fun _ _ => UInt8.toNat_inj.mp) hmap
    rw [List.inj_on_of_nodup_map hkeys he hf hkey]
  exact hsorted.eq_of_pairwise hone (List.pairwise_insertionSort keyLe _)
    (List.pairwise_insertionSort keyLe _)

theorem canonicalVec?_perm {es fs : List (Value × Value)} (hperm : es.Perm fs) :
    canonicalVec? (.map es) = canonicalVec? (.map fs) := by
  have hencodable : encodable (.map es) = encodable (.map fs) := by
    rw [Bool.eq_iff_iff]
    simp only [encodable, Bool.and_eq_true, decide_eq_true_eq, encodableEntries_eq_true,
      hperm.length_eq, hperm.mem_iff]
  have hkeys := (hperm.map fun e => toCanonicalVec e.1).nodup_iff
  have hduplicate : hasDuplicateKey (.map es) = false ↔ hasDuplicateKey (.map fs) = false := by
    rw [hasDuplicateKey_map, hasDuplicateKey_map, hkeys]
    refine and_congr_right fun _ => ⟨fun h => ?_, fun h => ?_⟩
    · exact duplicateInEntries_eq_false fun e he =>
        duplicateInEntries_mem h e (hperm.mem_iff.mpr he)
    · exact duplicateInEntries_eq_false fun e he =>
        duplicateInEntries_mem h e (hperm.mem_iff.mp he)
  by_cases h : encodable (.map es) = true ∧ hasDuplicateKey (.map es) = false
  · have hfs : encodable (.map fs) = true ∧ hasDuplicateKey (.map fs) = false :=
      ⟨hencodable ▸ h.1, hduplicate.mp h.2⟩
    have hvec : toCanonicalVec (.map es) = toCanonicalVec (.map fs) := by
      rw [toCanonicalVec, toCanonicalVec, canonical_map, canonical_map,
        canonicalMap_perm hperm (hasDuplicateKey_map.mp h.2).1]
    rw [canonicalVec?, canonicalVec?, if_pos h, if_pos hfs, hvec]
  · have hfs : ¬(encodable (.map fs) = true ∧ hasDuplicateKey (.map fs) = false) := fun hfs =>
      h ⟨hencodable.trans hfs.1, hduplicate.mpr hfs.2⟩
    rw [canonicalVec?, canonicalVec?, if_neg h, if_neg hfs]

theorem mem_of_lookup {key value : Value} {entries : List (Value × Value)}
    (h : lookup key entries = some value) : (key, value) ∈ entries := by
  obtain ⟨e, hfind, rfl⟩ := Option.map_eq_some_iff.mp h
  have hsame : e.1.sameKey key = true := by simpa using List.find?_some hfind
  rw [← eq_of_sameKey hsame]
  exact List.mem_of_find?_eq_some hfind

/-- A map whose lookups give every entry of a list of the same length holds
exactly that list. -/
theorem perm_of_lookup {es fs : List (Value × Value)} (hnodup : fs.Nodup)
    (hlength : es.length = fs.length) (h : ∀ e ∈ fs, lookup e.1 es = some e.2) : es.Perm fs := by
  have hsubset : fs ⊆ es := fun e he => mem_of_lookup (h e he)
  have hsubperm := List.subperm_of_subset hnodup hsubset
  exact (hsubperm.perm_of_length_le hlength.le).symm

end Cbor
end Codec
