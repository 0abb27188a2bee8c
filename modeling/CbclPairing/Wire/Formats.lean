import CbclPairing.Wire.Codecs

/-! What a wire format owes for its recogniser and its encoder to be inverse to
each other, and the field readers and map writers all formats share. -/
namespace CbclPairing
namespace Wire
open Codec Codec.Cbor Codec.Cddl Calls

/-- An encoder and a recogniser that undo each other, each on whatever the other
accepts; so one value has one encoding. -/
structure Bijective {α : Type} (encode : α → Except RecognitionError Bytes)
    (decode : Bytes → Except RecognitionError α) : Prop where
  decode_of_encode : ∀ x b, encode x = .ok b → decode b = .ok x
  encode_of_decode : ∀ b x, decode b = .ok x → encode x = .ok b
  unique : ∀ b b' x, decode b = .ok x → decode b' = .ok x → b = b'

theorem recogniseValue_eq_ok {input : Bytes} {rule : Rule} {v : Value}
    (h : recogniseValue input rule = .ok v) :
    decodeItem maxDepth input = .ok (v, []) ∧ canonicalVec? v = some input ∧ rule v = true := by
  unfold recogniseValue at h
  cases hread : decodeItem maxDepth input with
  | error e =>
    rw [hread] at h
    cases h
  | ok result =>
    obtain ⟨value, rest⟩ := result
    simp only [hread] at h
    obtain ⟨hrest, h⟩ := guard_eq_ok.mp h
    cases hvec : canonicalVec? value with
    | none =>
      simp only [hvec, except_bind_eq_ok] at h
      obtain ⟨duplicate, -, h⟩ := h
      cases duplicate <;> cases h
    | some encoded =>
      simp only [hvec] at h
      obtain ⟨hsame, h⟩ := guard_eq_ok.mp h
      simp only [except_bind_eq_ok] at h
      obtain ⟨duplicate, -, h⟩ := h
      obtain ⟨-, h⟩ := guard_eq_ok.mp h
      by_cases hrule : rule value = true
      · rw [if_pos hrule] at h
        cases h
        rw [not_not.mp hrest, ← not_not.mp hsame]
        exact ⟨rfl, hvec, hrule⟩
      · rw [if_neg hrule] at h
        cases h

theorem orTyped_eq_ok {α : Type} {o : Option α} {a : α} : orTyped o = .ok a ↔ o = some a := by
  cases o <;> simp [orTyped]

/-! ### Recognising what was encoded -/

/-- The scan over a map whose keys are new and distinct meets no key again. -/
theorem duplicateInEntries_fresh {d : ℕ} {entries : List (Value × Value)} {keys : List Bytes}
    (hfresh : ∀ e ∈ entries, toCanonicalVec e.1 ∉ keys)
    (hnodup : (entries.map fun e => toCanonicalVec e.1).Nodup)
    (hplain : ∀ e ∈ entries, Plain d e.1 ∧ Plain d e.2)
    (hitems : ∀ v, Plain d v → hasDuplicateKey v = .ok false) :
    duplicateInEntries keys entries = .ok false := by
  induction entries generalizing keys with
  | nil => rfl
  | cons e entries ih =>
    obtain ⟨⟨hkey, hitem⟩, hplain⟩ := List.forall_mem_cons.mp hplain
    obtain ⟨hnew, hfresh⟩ := List.forall_mem_cons.mp hfresh
    rw [List.map_cons, List.nodup_cons] at hnodup
    have hentry : duplicateInEntry e = .ok false := by
      obtain ⟨key, item⟩ := e
      rw [duplicateInEntry, hitems key hkey, ok_bind]
      exact hitems item hitem
    have hrest : ∀ f ∈ entries, toCanonicalVec f.1 ∉ toCanonicalVec e.1 :: keys := by
      intro f hf hmem
      rcases List.mem_cons.mp hmem with heq | hmem
      · exact hnodup.1 (List.mem_map.mpr ⟨f, hf, heq⟩)
      · exact hfresh f hf hmem
    rw [duplicateInEntries, canonicalVec?_of_plain hkey]
    simp only [if_neg hnew, hentry, ok_bind]
    exact ih hrest hnodup.2 hplain

theorem hasDuplicateKey_of_plain {d : ℕ} {v : Value} (h : Plain d v) :
    hasDuplicateKey v = .ok false := by
  induction d generalizing v with
  | zero => exact absurd h (by simp [Plain])
  | succ d ih =>
    cases v with
    | integer | bytes | text | bool | null => rfl
    | tag | float => exact absurd h (by simp [Plain])
    | map entries =>
      exact duplicateInEntries_fresh (by simp) h.2.1 h.2.2 fun v hv => ih hv
    | array items =>
      obtain ⟨-, hitems⟩ := h
      rw [hasDuplicateKey]
      induction items with
      | nil => rfl
      | cons x xs ihx =>
        obtain ⟨hx, hxs⟩ := List.forall_mem_cons.mp hitems
        rw [duplicateInItems, ih hx, ok_bind]
        exact ihx hxs

/-- The recogniser admits the encoding of every plain item its rule admits. -/
theorem recogniseValue_toCanonicalVec {v : Value} {rule : Rule} (h : Plain maxDepth v)
    (hrule : rule (canonical v) = true) :
    recogniseValue (toCanonicalVec v) rule = .ok (canonical v) := by
  have hplain := plain_canonical h
  have hread := decodeItem_encode hplain []
  rw [List.append_nil] at hread
  have hread : decodeItem maxDepth (toCanonicalVec v) = .ok (canonical v, []) := hread
  have hvec := canonicalVec?_of_plain hplain
  rw [toCanonicalVec_canonical] at hvec
  simp [recogniseValue, hread, hvec, hasDuplicateKey_of_plain hplain, ok_bind, hrule]

/-! ### Formats -/

namespace Format

variable {α : Type}

/-- What a format owes for its two directions to be inverse: it writes plain
items, reads back what it wrote, and writes what it read. -/
structure Faithful (f : Format α) : Prop where
  textual : ∀ x, Textual maxDepth (f.value x)
  reads : ∀ x y, Plain maxDepth (f.value x) → f.read (canonical (f.value x)) = .ok y → y = x
  writes : ∀ v x, f.rule v = true → f.read v = .ok x →
    canonicalVec? (f.value x) = canonicalVec? v

theorem encode_eq_ok {f : Format α} {x : α} {b : Bytes} (h : f.encode x = .ok b) :
    canonicalVec? (f.value x) = some b ∧ ∃ y, f.decode b = .ok y := by
  simp only [encode, except_bind_eq_ok] at h
  obtain ⟨encoded, hencoded, y, hy, h⟩ := h
  cases h
  exact ⟨orTyped_eq_ok.mp hencoded, y, hy⟩

/-- A plain item that the rule admits and the reader gives back is encoded. -/
theorem encode_ok {f : Format α} {x : α} (hplain : Plain maxDepth (f.value x))
    (hrule : f.rule (canonical (f.value x)) = true)
    (hread : f.read (canonical (f.value x)) = .ok x) :
    f.encode x = .ok (toCanonicalVec (f.value x)) := by
  have hencoded : deterministicBytes (f.value x) = .ok (toCanonicalVec (f.value x)) :=
    orTyped_eq_ok.mpr (canonicalVec?_of_plain hplain)
  have hdecoded : f.decode (toCanonicalVec (f.value x)) = .ok x := by
    rw [decode, recogniseValue_toCanonicalVec hplain hrule, ok_bind, hread]
  rw [encode, hencoded, ok_bind, hdecoded, ok_bind]

theorem decode_eq_ok {f : Format α} {b : Bytes} {x : α} (h : f.decode b = .ok x) :
    ∃ v, recogniseValue b f.rule = .ok v ∧ f.read v = .ok x := by
  simpa only [decode, except_bind_eq_ok] using h

theorem Faithful.decode_of_encode {f : Format α} (hf : f.Faithful) {x : α} {b : Bytes}
    (h : f.encode x = .ok b) : f.decode b = .ok x := by
  obtain ⟨hvec, y, hy⟩ := encode_eq_ok h
  obtain ⟨v, hv, hread⟩ := decode_eq_ok hy
  obtain ⟨⟨hencodable, hduplicate⟩, -⟩ := canonicalVec?_eq_some.mp hvec
  have hplain := plain_of_encodable hencodable hduplicate (hf.textual x)
  have hcanonical := decodeItem_canonicalVec? hvec (hf.textual x) (recogniseValue_eq_ok hv).1
  rw [hcanonical] at hread
  rwa [hf.reads x y hplain hread] at hy

theorem Faithful.encode_of_decode {f : Format α} (hf : f.Faithful) {b : Bytes} {x : α}
    (h : f.decode b = .ok x) : f.encode x = .ok b := by
  obtain ⟨v, hv, hread⟩ := decode_eq_ok h
  obtain ⟨-, hvec, hrule⟩ := recogniseValue_eq_ok hv
  have hvalue : deterministicBytes (f.value x) = .ok b :=
    orTyped_eq_ok.mpr ((hf.writes v x hrule hread).trans hvec)
  rw [encode, hvalue, ok_bind, h, ok_bind]

theorem Faithful.bijective {f : Format α} (hf : f.Faithful) : Bijective f.encode f.decode where
  decode_of_encode _ _ := hf.decode_of_encode
  encode_of_decode _ _ := hf.encode_of_decode
  unique _ _ _ h h' :=
    Except.ok.inj ((hf.encode_of_decode h).symm.trans (hf.encode_of_decode h'))

end Format

/-! ### What the field readers accept -/

theorem field_eq_ok {entries : Fields} {name : String} {value : Value} :
    field entries name = .ok value ↔ entries name = some value := orTyped_eq_ok

theorem textValue_eq_ok {value : Value} {s : Text} :
    textValue value = .ok s ↔ value = .text s.val := by
  cases value with
  | text t =>
    simp only [textValue, Value.text.injEq]
    by_cases h : validUtf8 t = true
    · rw [dif_pos h, Except.ok.injEq]
      exact Subtype.ext_iff
    · rw [dif_neg h]
      constructor
      · intro hs
        cases hs
      · intro hs
        exact absurd s.property (hs ▸ h)
  | _ => simp [textValue]

theorem bytesValue_eq_ok {value : Value} {b : Bytes} :
    bytesValue value = .ok b ↔ value = .bytes b := by
  cases value <;> simp [bytesValue, orTyped, Value.asBytes]

theorem fixedBytes_eq_ok {n : ℕ} {value : Value} {x : Octets n} :
    fixedBytes n value = .ok x ↔ value = .bytes x.val := by
  simp only [fixedBytes, except_bind_eq_ok, bytesValue_eq_ok, orTyped_eq_ok,
    Octets.ofList?_eq_some, exists_eq_right]

theorem uintValue_eq_ok {value : Value} {n : ℕ} :
    uintValue value = .ok n ↔ n < 2 ^ 64 ∧ value = .integer n := by
  cases value with
  | integer k =>
    rw [uintValue, orTyped_eq_ok, Value.asUint, Value.integer.injEq]
    by_cases h : 0 ≤ k ∧ k < 2 ^ 64
    · rw [if_pos h, Option.some.injEq]
      omega
    · rw [if_neg h]
      constructor
      · intro hn
        cases hn
      · rintro ⟨hn, hk⟩
        omega
  | _ => simp [uintValue, orTyped, Value.asUint]

theorem u8Value_eq_ok {value : Value} {n : UInt8} :
    u8Value value = .ok n ↔ value = .integer n.toNat := by
  have hn := n.toNat_lt
  simp only [u8Value, except_bind_eq_ok, uintValue_eq_ok]
  constructor
  · rintro ⟨k, ⟨_, hvalue⟩, h⟩
    by_cases hk : k < 2 ^ 8
    · rw [if_pos hk, Except.ok.injEq] at h
      rw [hvalue, ← h, UInt8.toNat_ofNat_of_lt' hk]
    · rw [if_neg hk] at h
      cases h
  · intro h
    refine ⟨n.toNat, ⟨by omega, h⟩, ?_⟩
    rw [if_pos hn, UInt8.ofNat_toNat]

theorem narrowValue_eq_ok {bits : ℕ} {value : Value} {n : ℕ} (hbits : bits ≤ 64) :
    narrowValue bits value = .ok n ↔ n < 2 ^ bits ∧ value = .integer n := by
  have hpow : 2 ^ bits ≤ 2 ^ 64 := Nat.pow_le_pow_right (by omega) hbits
  simp only [narrowValue, except_bind_eq_ok, uintValue_eq_ok]
  constructor
  · rintro ⟨k, ⟨_, hvalue⟩, h⟩
    by_cases hk : k < 2 ^ bits
    · rw [if_pos hk, Except.ok.injEq] at h
      exact h ▸ ⟨hk, hvalue⟩
    · rw [if_neg hk] at h
      cases h
  · rintro ⟨hn, h⟩
    exact ⟨n, ⟨by omega, h⟩, by rw [if_pos hn]⟩

theorem u64Value_eq_ok {value : Value} {n : UInt64} :
    u64Value value = .ok n ↔ value = .integer n.toNat := by
  have hn := n.toNat_lt
  simp only [u64Value, except_bind_eq_ok, uintValue_eq_ok, Except.ok.injEq]
  constructor
  · rintro ⟨k, ⟨hk, hvalue⟩, h⟩
    rw [hvalue, ← h, UInt64.toNat_ofNat_of_lt' hk]
  · intro h
    exact ⟨n.toNat, ⟨hn, h⟩, UInt64.ofNat_toNat⟩

/-- An optional member is read as the value whose entry it is. -/
theorem optionally_eq_ok {α : Type} {read : Value → Except RecognitionError α}
    {encoded : α → Value} {o : Option Value} {r : Option α}
    (hread : ∀ v a, read v = .ok a → v = encoded a) (h : optionally read o = .ok r) :
    o = r.map encoded := by
  cases o with
  | none =>
    cases h
    rfl
  | some v =>
    simp only [optionally, except_bind_eq_ok] at h
    obtain ⟨a, ha, h⟩ := h
    cases h
    rw [Option.map_some, hread v a ha]

theorem side_eq_ok {value : Value} {s : Side} : side value = .ok s ↔ value = encodedSide s := by
  simp only [side, except_bind_eq_ok, uintValue_eq_ok]
  constructor
  · rintro ⟨n, ⟨_, hvalue⟩, h⟩
    rw [hvalue]
    rcases n with _ | _ | n
    · cases h
      rfl
    · cases h
      rfl
    · cases h
  · intro h
    cases s
    · exact ⟨0, ⟨by decide, h⟩, rfl⟩
    · exact ⟨1, ⟨by decide, h⟩, rfl⟩

theorem direction_eq_ok {value : Value} {d : Direction} :
    direction value = .ok d ↔ value = encodedDirection d := by
  simp only [direction, except_bind_eq_ok, uintValue_eq_ok]
  constructor
  · rintro ⟨n, ⟨_, hvalue⟩, h⟩
    rw [hvalue]
    rcases n with _ | _ | n
    · cases h
      rfl
    · cases h
      rfl
    · cases h
  · intro h
    cases d
    · exact ⟨0, ⟨by decide, h⟩, rfl⟩
    · exact ⟨1, ⟨by decide, h⟩, rfl⟩

theorem locatorValue_eq_ok {value : Value} {l : Locator} (h : locatorValue value = .ok l) :
    value = encodedLocator l := by
  unfold locatorValue at h
  split at h
  · simp only [except_bind_eq_ok, uintValue_eq_ok] at h
    obtain ⟨n, ⟨-, rfl⟩, h⟩ := h
    rcases n with _ | _ | n
    · simp only [except_bind_eq_ok, fixedBytes_eq_ok, Except.ok.injEq] at h
      obtain ⟨mailboxId, rfl, rfl⟩ := h
      rfl
    · simp only [except_bind_eq_ok, narrowValue_eq_ok (by omega : 32 ≤ 64), Except.ok.injEq] at h
      obtain ⟨number, ⟨-, rfl⟩, rfl⟩ := h
      rfl
    · cases h
  · cases h

/-! ### What the readers make of an encoder's values -/

@[simp] theorem orTyped_some {α : Type} (a : α) : orTyped (some a) = .ok a := rfl

@[simp] theorem textValue_text {s : Bytes} (h : validUtf8 s = true) :
    textValue (.text s) = .ok ⟨s, h⟩ := textValue_eq_ok.mpr rfl

@[simp] theorem textValue_val (s : Text) : textValue (.text s.val) = .ok s :=
  textValue_eq_ok.mpr rfl

@[simp] theorem u8Value_integer (n : UInt8) : u8Value (.integer n.toNat) = .ok n :=
  u8Value_eq_ok.mpr rfl

@[simp] theorem u64Value_integer (n : UInt64) : u64Value (.integer n.toNat) = .ok n :=
  u64Value_eq_ok.mpr rfl

@[simp] theorem bytesValue_bytes (b : Bytes) : bytesValue (.bytes b) = .ok b :=
  bytesValue_eq_ok.mpr rfl

@[simp] theorem fixedBytes_bytes {n : ℕ} (x : Octets n) : fixedBytes n (.bytes x.val) = .ok x :=
  fixedBytes_eq_ok.mpr rfl

@[simp] theorem side_encodedSide (s : Side) : side (encodedSide s) = .ok s := side_eq_ok.mpr rfl

@[simp] theorem direction_encodedDirection (d : Direction) :
    direction (encodedDirection d) = .ok d := direction_eq_ok.mpr rfl

theorem narrowValue_integer {bits n m : ℕ} (hbits : bits ≤ 64)
    (h : narrowValue bits (.integer n) = .ok m) : m = n := by
  have hvalue := ((narrowValue_eq_ok hbits).mp h).2
  rw [Value.integer.injEq] at hvalue
  omega

theorem encodedLocator_injective {l l' : Locator} (h : encodedLocator l = encodedLocator l') :
    l = l' := by
  cases l <;> cases l' <;> simp [encodedLocator, Subtype.ext_iff] at h ⊢
  · exact h
  · exact h

theorem locatorValue_encodedLocator {l l' : Locator}
    (h : locatorValue (encodedLocator l) = .ok l') : l' = l :=
  encodedLocator_injective (locatorValue_eq_ok h).symm

theorem optionally_map {α : Type} {read : Value → Except RecognitionError α}
    {encoded : α → Value} {o r : Option α} (hread : ∀ a b, read (encoded a) = .ok b → b = a)
    (h : optionally read (o.map encoded) = .ok r) : r = o := by
  cases o with
  | none =>
    cases h
    rfl
  | some a =>
    simp only [Option.map_some, optionally, except_bind_eq_ok] at h
    obtain ⟨b, hb, h⟩ := h
    cases h
    rw [hread a b hb]

/-! ### Maps an encoder writes -/

/-- A value an encoder puts under a name: plain, and its own canonical form. -/
structure Flat (v : Value) : Prop where
  textual : Textual 256 v
  canonical : canonical v = v

@[simp] theorem flat_integer (n : ℤ) : Flat (.integer n) := ⟨trivial, rfl⟩

@[simp] theorem flat_bytes (b : Bytes) : Flat (.bytes b) := ⟨trivial, rfl⟩

@[simp] theorem flat_text {s : Bytes} (h : validUtf8 s = true) : Flat (.text s) := ⟨h, rfl⟩

@[simp] theorem flat_val (s : Text) : Flat (.text s.val) := ⟨s.property, rfl⟩

@[simp] theorem flat_encodedLocator (l : Locator) : Flat (encodedLocator l) := by
  cases l with
  | direct mailboxId => exact ⟨by simp [encodedLocator, Textual], rfl⟩
  | nameplate number => exact ⟨by simp [encodedLocator, Textual], rfl⟩

@[simp] theorem flat_encodedSide (s : Side) : Flat (encodedSide s) := by
  cases s <;> exact ⟨trivial, rfl⟩

@[simp] theorem flat_encodedDirection (d : Direction) : Flat (encodedDirection d) := by
  cases d <;> exact ⟨trivial, rfl⟩

/-- Distinct ASCII names. -/
def wellNamed (names : List String) : Bool :=
  decide (names.map ascii).Nodup && names.all fun name => validUtf8 (ascii name)

structure Written (entries : List (String × Value)) : Prop where
  names : wellNamed (entries.map Prod.fst) = true
  flat : ∀ e ∈ entries, Flat e.2

namespace Written

variable {entries : List (String × Value)}

theorem textual (h : Written entries) : Textual maxDepth (map entries) := by
  have hnames := h.names
  simp only [wellNamed, List.all_map, Bool.and_eq_true, List.all_eq_true] at hnames
  intro e he
  obtain ⟨e, hmem, rfl⟩ := List.mem_map.mp he
  exact ⟨hnames.2 e hmem, (h.flat e hmem).textual⟩

theorem nodup (h : Written entries) : (entries.map fun e => ascii e.1).Nodup := by
  have hnames := h.names
  simp only [wellNamed, List.map_map, Bool.and_eq_true, decide_eq_true_eq] at hnames
  exact hnames.1

theorem mapEntries (h : Written entries) (hplain : Plain maxDepth (map entries)) :
    mapEntries (canonical (map entries)) = .ok (fieldsOf (named entries)) := by
  rw [map, canonical_map, Wire.mapEntries,
    fieldsOf_canonicalMap hplain fun e he => (h.flat e he).canonical]

end Written

/-- A recognised map holds exactly these entries. -/
structure Holds (es : List (Value × Value)) (entries : List (String × Value)) : Prop where
  length : es.length = entries.length
  fields : ∀ e ∈ entries, fieldsOf es e.1 = some e.2

theorem Holds.canonicalVec? {es : List (Value × Value)} {entries : List (String × Value)}
    (h : Holds es entries) (hwritten : Written entries) :
    canonicalVec? (map entries) = Cbor.canonicalVec? (.map es) :=
  canonicalVec?_of_fields hwritten.nodup h.length h.fields

theorem fieldsOf_pushed {α : Type} (name : String) (encoded : α → Value) (o : Option α) :
    fieldsOf (named (pushed name encoded o)) name = o.map encoded := by
  cases o with
  | none => rfl
  | some a => exact fieldsOf_cons_self name (encoded a) []

theorem fieldsOf_pushed_ne {α : Type} {name other : String} (h : ascii other ≠ ascii name)
    (encoded : α → Value) (o : Option α) (rest : List (String × Value)) :
    fieldsOf (named (pushed other encoded o ++ rest)) name = fieldsOf (named rest) name := by
  cases o with
  | none => rfl
  | some a => exact fieldsOf_cons_ne h (encoded a) rest

@[simp] theorem pushed_length {α : Type} (name : String) (encoded : α → Value) (o : Option α) :
    (pushed name encoded o).length = o.isSome.toNat := by
  cases o <;> rfl

theorem mem_pushed {α : Type} {name : String} {encoded : α → Value} {o : Option α}
    {fields : Fields} (h : fields name = o.map encoded) :
    ∀ e ∈ pushed name encoded o, fields e.1 = some e.2 := by
  cases o with
  | none => simp [pushed]
  | some a => simpa [pushed] using h

theorem mapEntries_eq_ok {value : Value} {entries : Fields} (h : mapEntries value = .ok entries) :
    ∃ es, value = .map es ∧ entries = fieldsOf es := by
  cases value with
  | map es => exact ⟨es, rfl, (Except.ok.inj h).symm⟩
  | _ => cases h

section Dispatch

variable {α : Type} {branches : List (String × (Fields → Except RecognitionError α))}
  {entries : Fields}

theorem dispatch_cons_self (name : String) (read : Fields → Except RecognitionError α) :
    dispatch ((name, read) :: branches) (ascii name) entries = read entries := by
  simp [dispatch]

theorem dispatch_cons_ne {name : String} {kind : Bytes} (h : ascii name ≠ kind)
    (read : Fields → Except RecognitionError α) :
    dispatch ((name, read) :: branches) kind entries = dispatch branches kind entries := by
  simp [dispatch, h]

/-- The branch is selected by the text under the type name. -/
theorem dispatch_of_field {name kind : String} (hkind : validUtf8 (ascii kind) = true)
    (h : entries name = some (.text (ascii kind))) :
    (do
      let kind ← textValue (← field entries name)
      dispatch branches kind.val entries) = dispatch branches (ascii kind) entries := by
  rw [field, h, orTyped_some, ok_bind, textValue_text hkind, ok_bind]

/-- A map admitted by the rule of one kind is read by the branch of that kind. -/
theorem branch_of_rule {es : List (Value × Value)} {name kind : String} {members : List Member}
    {a : α} (hrule : closedMap (required name (literal kind) :: members) (.map es) = true)
    (hkind : validUtf8 (ascii kind) = true)
    (h : (do
      let kind ← textValue (← field (fieldsOf es) name)
      dispatch branches kind.val (fieldsOf es)) = .ok a) :
    fieldsOf es name = some (.text (ascii kind)) ∧
      es.length = memberCount members (fieldsOf es) + 1 ∧
      dispatch branches (ascii kind) (fieldsOf es) = .ok a := by
  obtain ⟨hmembers, hlength⟩ := closedMap_eq_true hrule
  have hname := required_literal.mp (hmembers _ List.mem_cons_self)
  rw [dispatch_of_field hkind hname] at h
  exact ⟨hname, hlength.trans (memberCount_required ..), h⟩

end Dispatch

/-- A format that writes maps is faithful when it reads back its own fields, and
when a recognised map holds exactly the entries of its reading. -/
theorem Format.Faithful.of_entries {α : Type} {f : Format α} {entries : α → List (String × Value)}
    (hvalue : ∀ x, f.value x = map (entries x)) (hwritten : ∀ x, Written (entries x))
    (hmap : ∀ v x, f.read v = .ok x → ∃ es, v = .map es)
    (hreads : ∀ es x y, mapEntries (.map es) = .ok (fieldsOf (named (entries x))) →
      f.read (.map es) = .ok y → y = x)
    (hholds : ∀ es x, f.rule (.map es) = true → f.read (.map es) = .ok x →
      Holds es (entries x)) : f.Faithful where
  textual x := by
    rw [hvalue]
    exact (hwritten x).textual
  reads x y hplain h := by
    rw [hvalue] at hplain h
    have hfields := (hwritten x).mapEntries hplain
    rw [map, canonical_map] at hfields h
    exact hreads _ x y hfields h
  writes v x hrule hread := by
    obtain ⟨es, rfl⟩ := hmap v x hread
    rw [hvalue]
    exact (hholds es x hrule hread).canonicalVec? (hwritten x)

/-- A reading that starts with the entries of a map is a reading of a map. -/
theorem isMap_of_read {α : Type} {value : Value} {rest : Fields → Except RecognitionError α}
    {a : α} (h : (mapEntries value >>= rest) = .ok a) : ∃ es, value = .map es := by
  obtain ⟨entries, hentries, -⟩ := except_bind_eq_ok.mp h
  obtain ⟨es, hes, -⟩ := mapEntries_eq_ok hentries
  exact ⟨es, hes⟩

end Wire
end CbclPairing
