import CbclPairing.Codec.Deterministic

/-! Grammar rules over data items: literals, ranges, sized strings, arrays,
choices, and closed maps under text keys with optional members. -/
namespace Codec
namespace Cddl
open Cbor

/-- A rule decides which items it admits. -/
abbrev Rule := Value → Bool

def range (low high : ℕ) : Rule
  | .integer n => decide ((low : ℤ) ≤ n ∧ n ≤ (high : ℤ))
  | _ => false

def number (n : ℕ) : Rule := range n n

def uint : Rule := range 0 (2 ^ 64 - 1)

def literal (text : String) : Rule
  | .text s => s == ascii text
  | _ => false

/-- `bstr .size (low..high)`. -/
def bstr (low high : ℕ) : Rule
  | .bytes b => decide (low ≤ b.length ∧ b.length ≤ high)
  | _ => false

/-- `tstr .size (low..high)`, counted in octets. -/
def tstr (low high : ℕ) : Rule
  | .text s => decide (low ≤ s.length ∧ s.length ≤ high)
  | _ => false

def choice (alternatives : List Rule) : Rule := fun value => alternatives.any fun rule => rule value

def admitsAll : List Rule → List Value → Bool
  | [], [] => true
  | rule :: rules, value :: values => rule value && admitsAll rules values
  | _, _ => false

def array (rules : List Rule) : Rule
  | .array items => admitsAll rules items
  | _ => false

/-! ### Closed maps -/

/-- What a map holds under each text key: the first entry there. -/
abbrev Fields := String → Option Value

def fieldsOf (entries : List (Value × Value)) : Fields := fun name =>
  lookup (.text (ascii name)) entries

/-- One member of a map rule. -/
structure Member where
  name : String
  optional : Bool
  rule : Rule

def required (name : String) (rule : Rule) : Member := ⟨name, false, rule⟩

def optional (name : String) (rule : Rule) : Member := ⟨name, true, rule⟩

def Member.admits (m : Member) (fields : Fields) : Bool :=
  match fields m.name with
  | some value => m.rule value
  | none => m.optional

/-- Every member is admitted, and the map holds nothing beside its members. -/
def closedMap (members : List Member) : Rule
  | .map entries =>
    members.all (fun m => m.admits (fieldsOf entries)) &&
      entries.length == members.countP fun m => (fieldsOf entries m.name).isSome
  | _ => false

/-- The required members, and the optional ones that are there. -/
def memberCount (members : List Member) (fields : Fields) : ℕ :=
  members.countP fun m => !m.optional || (fields m.name).isSome

@[simp] theorem memberCount_nil (fields : Fields) : memberCount [] fields = 0 := rfl

@[simp] theorem memberCount_required (name : String) (rule : Rule) (members : List Member)
    (fields : Fields) :
    memberCount (required name rule :: members) fields = memberCount members fields + 1 := by
  simp [memberCount, required]

@[simp] theorem memberCount_optional (name : String) (rule : Rule) (members : List Member)
    (fields : Fields) :
    memberCount (optional name rule :: members) fields =
      memberCount members fields + (fields name).isSome.toNat := by
  cases h : (fields name).isSome <;> simp [memberCount, optional, h]

theorem closedMap_eq_true {members : List Member} {entries : List (Value × Value)}
    (h : closedMap members (.map entries) = true) :
    (∀ m ∈ members, m.admits (fieldsOf entries) = true) ∧
      entries.length = memberCount members (fieldsOf entries) := by
  simp only [closedMap, Bool.and_eq_true, List.all_eq_true, beq_iff_eq] at h
  refine ⟨h.1, h.2.trans (List.countP_congr fun m hm => ?_)⟩
  have hadmits := h.1 m hm
  unfold Member.admits at hadmits
  cases hvalue : fieldsOf entries m.name with
  | some value => simp
  | none =>
    simp only [hvalue] at hadmits
    simp [hadmits]

theorem closedMap_isMap {members : List Member} {value : Value}
    (h : closedMap members value = true) : ∃ entries, value = .map entries := by
  cases value with
  | map entries => exact ⟨entries, rfl⟩
  | _ => cases h

theorem required_admits {name : String} {rule : Rule} {fields : Fields} :
    (required name rule).admits fields = true ↔
      ∃ value, fields name = some value ∧ rule value = true := by
  unfold Member.admits required
  cases fields name <;> simp

theorem literal_eq_true {text : String} {value : Value} :
    literal text value = true ↔ value = .text (ascii text) := by
  cases value <;> simp [literal]

theorem number_eq_true {n : ℕ} {value : Value} :
    number n value = true ↔ value = .integer n := by
  cases value with
  | integer k =>
    simp only [number, range, decide_eq_true_eq, Value.integer.injEq]
    omega
  | _ => simp [number, range]

theorem required_literal {name text : String} {fields : Fields} :
    (required name (literal text)).admits fields = true ↔
      fields name = some (.text (ascii text)) := by
  rw [required_admits]
  constructor
  · rintro ⟨value, hvalue, hrule⟩
    rw [hvalue, literal_eq_true.mp hrule]
  · intro h
    exact ⟨_, h, literal_eq_true.mpr rfl⟩

theorem required_number {name : String} {n : ℕ} {fields : Fields} :
    (required name (number n)).admits fields = true ↔ fields name = some (.integer n) := by
  rw [required_admits]
  constructor
  · rintro ⟨value, hvalue, hrule⟩
    rw [hvalue, number_eq_true.mp hrule]
  · intro h
    exact ⟨_, h, number_eq_true.mpr rfl⟩

theorem choice_eq_true {alternatives : List Rule} {value : Value}
    (h : choice alternatives value = true) : ∃ rule ∈ alternatives, rule value = true := by
  simpa only [choice, List.any_eq_true] using h

/-! ### Named entries -/

/-- A map written down under text keys. -/
def named (entries : List (String × Value)) : List (Value × Value) :=
  entries.map fun e => (.text (ascii e.1), e.2)

@[simp] theorem named_length (entries : List (String × Value)) :
    (named entries).length = entries.length := List.length_map ..

@[simp] theorem fieldsOf_cons_self (name : String) (value : Value)
    (entries : List (String × Value)) :
    fieldsOf (named ((name, value) :: entries)) name = some value := by
  simp [fieldsOf, named, lookup, Value.sameKey]

theorem fieldsOf_cons_ne {name other : String} (h : ascii other ≠ ascii name) (value : Value)
    (entries : List (String × Value)) :
    fieldsOf (named ((other, value) :: entries)) name = fieldsOf (named entries) name := by
  simp [fieldsOf, named, lookup, Value.sameKey, h]

@[simp] theorem fieldsOf_nil (name : String) : fieldsOf (named []) name = none := rfl

/-- Under distinct names a map holds every entry it was written with. -/
theorem fieldsOf_of_mem {entries : List (String × Value)}
    (hnames : (entries.map fun e => ascii e.1).Nodup) {e : String × Value} (h : e ∈ entries) :
    fieldsOf (named entries) e.1 = some e.2 := by
  induction entries with
  | nil => simp at h
  | cons first entries ih =>
    rw [List.map_cons, List.nodup_cons] at hnames
    rcases List.mem_cons.mp h with rfl | h
    · exact fieldsOf_cons_self ..
    · have hne : ascii first.1 ≠ ascii e.1 := fun heq =>
        hnames.1 (List.mem_map.mpr ⟨e, h, heq.symm⟩)
      rw [fieldsOf_cons_ne hne]
      exact ih hnames.2 h

/-- Sorting a map of canonical values changes none of its fields. -/
theorem fieldsOf_canonicalMap {d : ℕ} {entries : List (String × Value)}
    (h : Plain d (.map (named entries))) (hfix : ∀ e ∈ entries, canonical e.2 = e.2) :
    fieldsOf (canonicalMap (named entries)) = fieldsOf (named entries) := by
  funext name
  rw [fieldsOf, fieldsOf, lookup_canonicalMap h]
  cases hvalue : lookup (.text (ascii name)) (named entries) with
  | none => rfl
  | some value =>
    obtain ⟨e, he, heq⟩ := List.mem_map.mp (mem_of_lookup hvalue)
    have hcanonical := hfix e he
    rw [(Prod.mk.inj heq).2] at hcanonical
    rw [Option.map_some, hcanonical]

/-- Sorting a map of canonical values does not change which closed maps admit it. -/
theorem closedMap_canonicalMap {d : ℕ} {entries : List (String × Value)}
    (h : Plain d (.map (named entries))) (hfix : ∀ e ∈ entries, canonical e.2 = e.2)
    (members : List Member) :
    closedMap members (.map (canonicalMap (named entries))) =
      closedMap members (.map (named entries)) := by
  simp only [closedMap, fieldsOf_canonicalMap h hfix, canonicalMap_length]

/-- A map with as many entries as a list of names, and the list's values under
them, has the list's encoding. -/
theorem canonicalVec?_of_fields {es : List (Value × Value)} {entries : List (String × Value)}
    (hnames : (entries.map fun e => ascii e.1).Nodup) (hlength : es.length = entries.length)
    (h : ∀ e ∈ entries, fieldsOf es e.1 = some e.2) :
    canonicalVec? (.map (named entries)) = canonicalVec? (.map es) := by
  have hnodup : (named entries).Nodup := by
    have hkeys := hnames.map fun s t (hst : Value.text s = Value.text t) => Value.text.inj hst
    rw [List.map_map] at hkeys
    refine List.Nodup.of_map Prod.fst ?_
    rw [named, List.map_map]
    exact hkeys
  refine (canonicalVec?_perm (perm_of_lookup hnodup (by simpa using hlength) ?_)).symm
  intro e he
  obtain ⟨e, hmem, rfl⟩ := List.mem_map.mp he
  exact h e hmem

end Cddl
end Codec
