import CbclPairing.BitPacking
import CbclPairing.CredentialV2.Transfer
import Mathlib.Tactic.IntervalCases

/-! Reading a presence code, and why each pair of secrets has one code. -/
namespace CbclPairing

/-- `u8::to_ascii_uppercase`. -/
def toAsciiUppercase (b : UInt8) : UInt8 := if 97 ≤ b ∧ b ≤ 122 then b - 32 else b

/-- `u8::to_ascii_lowercase`. -/
def toAsciiLowercase (b : UInt8) : UInt8 := if 65 ≤ b ∧ b ≤ 90 then b + 32 else b

namespace CredentialV2
open Codec Codec.Cbor Calls BitPacking

namespace PresenceCode

def encodedBits : ℕ := 275

/-- One bit of a symbol goes to its place in the payload. Padding has to be zero. -/
def readBit (symbol : ℕ) (value : UInt8) (payload : Octets 34) (bit : ℕ) :
    Except Error (Octets 34) :=
  let position := symbol * 5 + bit
  let set := (value >>> UInt8.ofNat (4 - bit)) &&& 1
  if position < dataBits then .ok (setBit payload position set)
  else if position < encodedBits ∧ set ≠ 0 then .error .schema
  else .ok payload

def readSymbol (payload : Octets 34) : UInt8 × ℕ → Except Error (Octets 34)
  | (character, symbol) =>
    match alphabet.findIdx? (· == character) with
    | none => .error .schema
    | some value => (List.range 5).foldlM (readBit symbol (UInt8.ofNat value)) payload

/-- `FromStr`. -/
def fromStr [Primitives] (input : Bytes) : Except Error PresenceCode :=
  if !isAscii input then .error .schema
  else
    match (input.map toAsciiUppercase).splitOn 45 with
    | [] => .error .schema
    | version :: groupTexts =>
      if version ≠ ascii "PAIR1" then .error .schema
      else if groupTexts.length ≠ groups ∨ groupTexts.any (·.length ≠ groupOctets) then
        .error .schema
      else do
        let payload ← groupTexts.flatten.zipIdx.foldlM readSymbol (Octets.replicate 34 0)
        let code : PresenceCode :=
          ⟨⟨payload.val.take 16, by simp⟩, ⟨(payload.val.drop 16).take 16, by simp⟩⟩
        if code.payload.drop 32 ≠ payload.val.drop 32 then .error .profile else .ok code

/-! ### Symbols -/

def symbolValue (character : UInt8) : UInt8 :=
  UInt8.ofNat ((alphabet.findIdx? (· == character)).getD 0)

def symbolText (value : UInt8) : UInt8 := alphabet.getD value.toNat 0

set_option maxRecDepth 2048 in
theorem findIdx?_symbolText {value : UInt8} (h : value.toNat < 2 ^ 5) :
    alphabet.findIdx? (· == symbolText value) = some value.toNat := by
  revert value
  decide

set_option maxRecDepth 2048 in
theorem symbolText_plain {value : UInt8} (h : value.toNat < 2 ^ 5) :
    symbolText value ≠ 45 ∧ (symbolText value).toNat < 128 ∧
      toAsciiUppercase (symbolText value) = symbolText value := by
  revert value
  decide

set_option maxRecDepth 2048 in
theorem symbolText_symbolValue {character : UInt8} {index : ℕ}
    (h : alphabet.findIdx? (· == character) = some index) :
    index < 2 ^ 5 ∧ symbolValue character = UInt8.ofNat index ∧
      symbolText (UInt8.ofNat index) = character := by
  have htable : ∀ character, ∀ index ∈ alphabet.findIdx? (· == character),
      index < 2 ^ 5 ∧ symbolText (UInt8.ofNat index) = character := by
    decide
  obtain ⟨hindex, htext⟩ := htable character index h
  exact ⟨hindex, by rw [symbolValue, h, Option.getD_some], htext⟩

/-- The bits that the loop of the display puts together are those of the payload. -/
theorem symbol_bits (payload : Bytes) (index : ℕ) : (symbol payload index).toNat < 2 ^ 5 ∧
    ∀ j < 5, (symbol payload index).toNat.testBit (4 - j) =
      (decide (index * 5 + j < dataBits) && bitAt 8 payload (index * 5 + j)) := by
  have hbit : ∀ position, bit payload position =
      octetOf (decide (position < dataBits) && bitAt 8 payload position) := by
    intro position
    unfold bit bitAt
    split_ifs with hposition
    · rw [shiftRight_and_one (by omega), decide_eq_true hposition, Bool.true_and]
    · rw [decide_eq_false hposition, Bool.false_and]
      rfl
  have hfold : ∀ a b c d e : Bool, (digitOf [a, b, c, d, e]).toNat < 2 ^ 5 ∧
      ∀ j < 5, (digitOf [a, b, c, d, e]).toNat.testBit (4 - j) = [a, b, c, d, e].getD j false := by
    decide
  simp only [digitOf, List.foldl_cons, List.foldl_nil] at hfold
  have hrange : List.range 5 = [0, 1, 2, 3, 4] := rfl
  simp only [symbol, hrange, List.foldl_cons, List.foldl_nil, hbit]
  obtain ⟨hlt, hbits⟩ := hfold _ _ _ _ _
  refine ⟨hlt, fun j hj => (hbits j hj).trans ?_⟩
  interval_cases j <;> rfl

/-! ### The loop of the reader -/

/-- After `n` bits of the symbols the payload holds those bits and zeros, and no bit of
the padding was set. -/
def Read (values : Bytes) (n : ℕ) (payload : Octets 34) : Prop :=
  (∀ position, bitAt 8 payload.val position =
    (decide (position < n) && decide (position < dataBits) && bitAt 5 values position)) ∧
  ∀ position, dataBits ≤ position → position < n → bitAt 5 values position = false

theorem read_zeros (values : Bytes) : Read values 0 (Octets.replicate 34 0) := by
  constructor
  · intro position
    exact (bitAt_zeros 8 34 position).trans (by simp)
  · intro position _ h
    exact absurd h (Nat.not_lt_zero _)

theorem Read.setBit {values : Bytes} {n : ℕ} {payload : Octets 34} (h : Read values n payload)
    (hn : n < dataBits) :
    Read values (n + 1) (setBit payload n (octetOf (bitAt 5 values n))) := by
  constructor
  · intro position
    rw [bitAt_setBit payload (by unfold dataBits at hn; omega), h.1 position]
    by_cases hsame : position = n
    · subst hsame
      simp [hn]
    · have hlt : (position < n + 1) ↔ position < n := by omega
      simp [hsame, hlt]
  · intro position hdata hlt
    omega

theorem Read.skip {values : Bytes} {n : ℕ} {payload : Octets 34} (h : Read values n payload)
    (hn : dataBits ≤ n) (hbit : bitAt 5 values n = false) : Read values (n + 1) payload := by
  constructor
  · intro position
    rw [h.1 position]
    by_cases hdata : position < dataBits
    · have hlt : (position < n + 1) ↔ position < n := by omega
      simp [hlt]
    · simp [hdata]
  · intro position hdata hlt
    by_cases hsame : position = n
    · rwa [hsame]
    · apply h.2 position hdata
      omega

theorem readBit_eq {values : Bytes} {symbol bit : ℕ} (payload : Octets 34) (hbit : bit < 5)
    (hsymbol : symbol * 5 + bit < encodedBits) :
    readBit symbol (values.getD symbol 0) payload bit =
      if symbol * 5 + bit < dataBits then
        .ok (BitPacking.setBit payload (symbol * 5 + bit)
          (octetOf (bitAt 5 values (symbol * 5 + bit))))
      else if bitAt 5 values (symbol * 5 + bit) = true then .error .schema
      else .ok payload := by
  have hset : (values.getD symbol 0 >>> UInt8.ofNat (4 - bit)) &&& 1 =
      octetOf (bitAt 5 values (symbol * 5 + bit)) := by
    rw [shiftRight_and_one (by omega), bitAt_digit values hbit]
  have hone : octetOf (bitAt 5 values (symbol * 5 + bit)) ≠ 0 ↔
      bitAt 5 values (symbol * 5 + bit) = true := by
    cases bitAt 5 values (symbol * 5 + bit) <;> decide
  unfold readBit
  simp only [hset, hsymbol, true_and, hone]

theorem readBit_read {values : Bytes} {symbol bit : ℕ} {payload payload' : Octets 34}
    (h : Read values (symbol * 5 + bit) payload) (hbit : bit < 5)
    (hsymbol : symbol * 5 + bit < encodedBits)
    (hread : readBit symbol (values.getD symbol 0) payload bit = .ok payload') :
    Read values (symbol * 5 + bit + 1) payload' := by
  rw [readBit_eq payload hbit hsymbol] at hread
  split_ifs at hread with hdata hone
  · rw [← Except.ok.inj hread]
    exact h.setBit hdata
  · rw [← Except.ok.inj hread]
    exact h.skip (by omega) (Bool.not_eq_true _ ▸ hone)

theorem readBit_ok {values : Bytes} {symbol bit : ℕ} {payload : Octets 34}
    (h : Read values (symbol * 5 + bit) payload) (hbit : bit < 5)
    (hsymbol : symbol * 5 + bit < encodedBits)
    (hpadding : dataBits ≤ symbol * 5 + bit → bitAt 5 values (symbol * 5 + bit) = false) :
    ∃ payload', readBit symbol (values.getD symbol 0) payload bit = .ok payload' ∧
      Read values (symbol * 5 + bit + 1) payload' := by
  rw [readBit_eq payload hbit hsymbol]
  by_cases hdata : symbol * 5 + bit < dataBits
  · exact ⟨_, if_pos hdata, h.setBit hdata⟩
  · have hzero := hpadding (by omega)
    rw [if_neg hdata, if_neg (by simp [hzero])]
    exact ⟨_, rfl, h.skip (by omega) hzero⟩

/-- The symbols accepted by the reader are those of the alphabet, and it reads their bits. -/
theorem readSymbols_read {characters : Bytes} {payload : Octets 34}
    (hlength : characters.length = 55)
    (hread : characters.zipIdx.foldlM readSymbol (Octets.replicate 34 0) = .ok payload) :
    (∀ i (hi : i < characters.length),
      (alphabet.findIdx? (· == characters[i])).isSome = true) ∧
    Read (characters.map symbolValue) 275 payload := by
  have hloop := foldlM_invariant (P := fun n payload =>
      (∀ i (_ : i < characters.length), i < n →
        (alphabet.findIdx? (· == characters[i])).isSome = true) ∧
      Read (characters.map symbolValue) (n * 5) payload) ?_
    ⟨fun i _ h => absurd h (Nat.not_lt_zero i), read_zeros _⟩ hread
  · rw [List.length_zipIdx] at hloop
    obtain ⟨hknown, hbits⟩ := hloop
    rw [hlength] at hbits
    exact ⟨fun i hi => hknown i hi hi, hbits⟩
  · intro n hn payload payload' hbefore hstep
    rw [List.length_zipIdx] at hn
    rw [List.getElem_zipIdx, Nat.zero_add] at hstep
    unfold readSymbol at hstep
    cases hindex : alphabet.findIdx? (· == characters[n]) with
    | none => simp [hindex] at hstep
    | some index =>
      simp only [hindex] at hstep
      obtain ⟨-, hvalue, -⟩ := symbolText_symbolValue hindex
      have hdigit : (characters.map symbolValue).getD n 0 = UInt8.ofNat index := by
        rw [List.getD_eq_getElem _ _ (by simpa using hn), List.getElem_map, hvalue]
      rw [← hdigit] at hstep
      have hbits := foldlM_invariant (P := fun bit payload =>
          Read (characters.map symbolValue) (n * 5 + bit) payload) ?_ hbefore.2 hstep
      · rw [List.length_range] at hbits
        refine ⟨fun i hi hlt => ?_, by rwa [Nat.succ_mul]⟩
        rcases Nat.lt_succ_iff_lt_or_eq.mp hlt with hlt | rfl
        · exact hbefore.1 i hi hlt
        · simp [hindex]
      · intro bit hbit payload payload' hpayload hread
        rw [List.length_range] at hbit
        rw [List.getElem_range] at hread
        apply readBit_read hpayload hbit _ hread
        unfold encodedBits
        omega

theorem readSymbols_ok {values : Bytes} (hlength : values.length = 55)
    (hvalues : ∀ value ∈ values, value.toNat < 2 ^ 5)
    (hpadding : ∀ position, dataBits ≤ position → position < encodedBits →
      bitAt 5 values position = false) :
    ∃ payload, (values.map symbolText).zipIdx.foldlM readSymbol (Octets.replicate 34 0) =
      .ok payload ∧ Read values 275 payload := by
  have hsymbol : ∀ n (hn : n < values.length) payload, Read values (n * 5) payload →
      ∃ payload', readSymbol payload (symbolText values[n], n) = .ok payload' ∧
        Read values ((n + 1) * 5) payload' := by
    intro n hn payload hpayload
    have hvalue := hvalues values[n] (List.getElem_mem hn)
    have hbit : ∀ bit (hbit : bit < (List.range 5).length) payload,
        Read values (n * 5 + bit) payload →
        ∃ payload', readBit n (values.getD n 0) payload (List.range 5)[bit] = .ok payload' ∧
          Read values (n * 5 + (bit + 1)) payload' := by
      intro bit hbit payload hpayload
      rw [List.length_range] at hbit
      have hencoded : n * 5 + bit < encodedBits := by
        unfold encodedBits
        omega
      rw [List.getElem_range]
      exact readBit_ok hpayload hbit hencoded fun hdata => hpadding _ hdata hencoded
    obtain ⟨payload', hread, hpayload'⟩ := foldlM_total hbit hpayload
    rw [List.length_range, ← Nat.succ_mul] at hpayload'
    refine ⟨payload', ?_, hpayload'⟩
    simp only [readSymbol, findIdx?_symbolText hvalue]
    rwa [UInt8.ofNat_toNat, ← List.getD_eq_getElem values 0 hn]
  have hloop : ∃ payload, (values.map symbolText).zipIdx.foldlM readSymbol
      (Octets.replicate 34 0) = .ok payload ∧
      Read values ((values.map symbolText).zipIdx.length * 5) payload := by
    apply foldlM_total (P := fun n payload => Read values (n * 5) payload) _ (read_zeros values)
    intro n hn payload hpayload
    rw [List.length_zipIdx, List.length_map] at hn
    rw [List.getElem_zipIdx, List.getElem_map, Nat.zero_add]
    exact hsymbol n hn payload hpayload
  rwa [List.length_zipIdx, List.length_map, hlength] at hloop

theorem symbolValue_characters {characters : Bytes}
    (h : ∀ i (hi : i < characters.length),
      (alphabet.findIdx? (· == characters[i])).isSome = true) :
    (∀ value ∈ characters.map symbolValue, value.toNat < 2 ^ 5) ∧
      (characters.map symbolValue).map symbolText = characters := by
  have hknown : ∀ character ∈ characters, (symbolValue character).toNat < 2 ^ 5 ∧
      symbolText (symbolValue character) = character := by
    intro character hmem
    obtain ⟨i, hi, rfl⟩ := List.getElem_of_mem hmem
    obtain ⟨index, hindex⟩ := Option.isSome_iff_exists.mp (h i hi)
    obtain ⟨hlt, hvalue, htext⟩ := symbolText_symbolValue hindex
    rw [hvalue, UInt8.toNat_ofNat']
    exact ⟨by omega, htext⟩
  constructor
  · intro value hvalue
    obtain ⟨character, hmem, rfl⟩ := List.mem_map.mp hvalue
    exact (hknown character hmem).1
  · rw [List.map_map]
    exact (List.map_congr_left fun character hmem => (hknown character hmem).2).trans
      (List.map_id _)

/-! ### The display -/

/-- The symbols of a payload. -/
def symbols (payload : Bytes) : Bytes := (List.range 55).map (symbol payload)

def groupTexts (payload : Bytes) : List Bytes := (List.range groups).map (group payload)

theorem bitAt_symbols (payload : Bytes) {position : ℕ} (h : position < encodedBits) :
    bitAt 5 (symbols payload) position =
      (decide (position < dataBits) && bitAt 8 payload position) := by
  unfold encodedBits at h
  have hindex : (symbols payload).getD (position / 5) 0 = symbol payload (position / 5) := by
    have hlt : position / 5 < (symbols payload).length := by
      simp only [symbols, List.length_map, List.length_range]
      omega
    rw [List.getD_eq_getElem _ _ hlt]
    simp [symbols]
  have hbits := (symbol_bits payload (position / 5)).2 (position % 5) (Nat.mod_lt _ (by decide))
  rw [Nat.div_add_mod'] at hbits
  rw [bitAt, hindex, ← hbits]

theorem symbols_lt (payload : Bytes) : ∀ value ∈ symbols payload, value.toNat < 2 ^ 5 := by
  intro value hvalue
  obtain ⟨index, -, rfl⟩ := List.mem_map.mp hvalue
  exact (symbol_bits payload index).1

theorem flatten_groupTexts (payload : Bytes) :
    (groupTexts payload).flatten = (symbols payload).map symbolText := rfl

theorem intercalate_cons_eq (separator first : Bytes) (rest : List Bytes) :
    separator.intercalate (first :: rest) = first ++ rest.flatMap (separator ++ ·) := by
  induction rest generalizing first with
  | nil => simp
  | cons next rest ih =>
    rw [List.intercalate_cons_cons, ih, List.flatMap_cons]
    simp

/-- The parts of a display: none holds a hyphen, and all have the length of a group. -/
theorem groupTexts_plain (payload : Bytes) : ∀ text ∈ groupTexts payload,
    text.length = groupOctets ∧ ∀ b ∈ text, b ≠ 45 ∧ b.toNat < 128 ∧ toAsciiUppercase b = b := by
  intro text htext
  obtain ⟨index, -, rfl⟩ := List.mem_map.mp htext
  refine ⟨by simp [group], fun b hb => ?_⟩
  obtain ⟨offset, -, rfl⟩ := List.mem_map.mp hb
  exact symbolText_plain (symbol_bits payload _).1

/-- What was read of the symbols of a payload is the payload. -/
theorem Read.eq_payload {payload : Bytes} (hlength : payload.length = 34) {read : Octets 34}
    (h : Read (symbols payload) 275 read) : read.val = payload := by
  apply eq_of_bitAt (by simp [hlength]) (fun x _ => x.toNat_lt) (fun x _ => x.toNat_lt)
  intro position hposition
  rw [Octets.length_val] at hposition
  rw [h.1, bitAt_symbols payload (by unfold encodedBits; omega)]
  have hdata : position < dataBits := hposition
  have hread : position < 275 := by omega
  simp [hdata, hread]

/-- What was read has the symbols it was read from. -/
theorem Read.symbols_eq {values : Bytes} (hlength : values.length = 55)
    (hvalues : ∀ value ∈ values, value.toNat < 2 ^ 5) {read : Octets 34}
    (h : Read values 275 read) : symbols read.val = values := by
  apply eq_of_bitAt (by simp [symbols, hlength]) (symbols_lt _) hvalues
  intro position hposition
  have hposition : position < 275 := by simpa [symbols] using hposition
  rw [bitAt_symbols _ hposition, h.1]
  by_cases hdata : position < dataBits
  · simp [hdata, hposition]
  · rw [h.2 position (by omega) hposition]
    simp [hdata]

variable [Primitives]

theorem display_eq (code : PresenceCode) :
    code.display = [45].intercalate (ascii "PAIR1" :: groupTexts code.payload) := by
  rw [intercalate_cons_eq]
  unfold display groupTexts
  rw [List.flatMap_map]
  rfl

theorem payload_length (code : PresenceCode) : code.payload.length = 34 := by
  simp [payload]

/-- The secrets are the first 32 octets of the payload. -/
theorem payload_parts (code : PresenceCode) :
    code.payload.take 16 = code.cpaceSecret.val ∧
      (code.payload.drop 16).take 16 = code.claimToken.val ∧
      code.payload = code.cpaceSecret.val ++ code.claimToken.val ++ code.payload.drop 32 := by
  have hfirst : code.payload = code.cpaceSecret.val ++ (code.claimToken.val ++
      (sha256 (domain ++ code.cpaceSecret.val ++ code.claimToken.val)).val.take 2) :=
    List.append_assoc _ _ _
  have hdrop : code.payload.drop 16 = code.claimToken.val ++
      (sha256 (domain ++ code.cpaceSecret.val ++ code.claimToken.val)).val.take 2 := by
    rw [hfirst, List.drop_left' (by simp)]
  have hchecksum : code.payload.drop 32 =
      (sha256 (domain ++ code.cpaceSecret.val ++ code.claimToken.val)).val.take 2 :=
    List.drop_left' (by simp)
  refine ⟨?_, ?_, ?_⟩
  · rw [hfirst, List.take_left' (by simp)]
  · rw [hdrop, List.take_left' (by simp)]
  · rw [hchecksum]
    rfl

theorem splitOn_display (code : PresenceCode) :
    code.display.splitOn 45 = ascii "PAIR1" :: groupTexts code.payload := by
  rw [display_eq]
  apply List.splitOn_intercalate 45 _ (List.cons_ne_nil _ _)
  intro text htext
  rcases List.mem_cons.mp htext with rfl | htext
  · decide
  · exact fun hmem => ((groupTexts_plain _ text htext).2 45 hmem).1 rfl

set_option maxRecDepth 2048 in
theorem display_plain (code : PresenceCode) :
    isAscii code.display = true ∧ code.display.map toAsciiUppercase = code.display := by
  have hplain : ∀ b ∈ code.display, b.toNat < 128 ∧ toAsciiUppercase b = b := by
    rw [display_eq, intercalate_cons_eq]
    intro b hb
    simp only [List.mem_append, List.mem_flatMap, List.mem_singleton] at hb
    rcases hb with hb | ⟨text, htext, rfl | hb⟩
    · revert b
      decide
    · decide
    · exact ((groupTexts_plain _ text htext).2 b hb).2
  constructor
  · rw [isAscii, List.all_eq_true]
    exact fun b hb => decide_eq_true (hplain b hb).1
  · exact (List.map_congr_left fun b hb => (hplain b hb).2).trans (List.map_id _)

/-- A code is accepted where its upper-case form is the display of what is read. -/
theorem fromStr_eq_ok {input : Bytes} {code : PresenceCode} : fromStr input = .ok code ↔
    isAscii input = true ∧ input.map toAsciiUppercase = code.display := by
  constructor
  · intro h
    unfold fromStr at h
    obtain ⟨hascii, h⟩ := guard_eq_ok.mp h
    cases hsplit : (input.map toAsciiUppercase).splitOn 45 with
    | nil => simp [hsplit] at h
    | cons version texts =>
      simp only [hsplit, guard_eq_ok, not_or, not_not, except_bind_eq_ok] at h
      obtain ⟨rfl, ⟨hcount, hsizes⟩, payload, hread, hcheck, hcode⟩ := h
      have hsizes : ∀ text ∈ texts, text.length = groupOctets := by simpa using hsizes
      have hlength : texts.flatten.length = 55 := by
        rw [List.length_flatten, List.map_congr_left hsizes, List.map_const', hcount]
        rfl
      obtain ⟨hknown, hbits⟩ := readSymbols_read hlength hread
      obtain ⟨hvalues, htexts⟩ := symbolValue_characters hknown
      have hgroups : groupTexts payload.val = texts := by
        apply List.eq_iff_flatten_eq.mpr
        constructor
        · rw [flatten_groupTexts, hbits.symbols_eq (by rw [List.length_map, hlength]) hvalues,
            htexts]
        · rw [List.map_congr_left fun text htext => (groupTexts_plain _ text htext).1,
            List.map_congr_left hsizes, List.map_const', List.map_const', hcount]
          simp [groupTexts]
      have hpayload : code.payload = payload.val := by
        rw [← Except.ok.inj hcode, (payload_parts _).2.2, hcheck, ← List.take_add,
          List.take_append_drop]
      refine ⟨by simpa using hascii, ?_⟩
      rw [display_eq, hpayload, hgroups, ← hsplit]
      exact (List.intercalate_splitOn 45).symm
  · rintro ⟨hascii, hupper⟩
    have hbits : ∀ position, dataBits ≤ position → position < encodedBits →
        bitAt 5 (symbols code.payload) position = false := by
      intro position hdata hencoded
      rw [bitAt_symbols _ hencoded, decide_eq_false (by omega), Bool.false_and]
    obtain ⟨payload, hread, hpayload⟩ :=
      readSymbols_ok (by simp [symbols]) (symbols_lt code.payload) hbits
    have hsame : payload.val = code.payload := hpayload.eq_payload code.payload_length
    have hsizes : ¬((groupTexts code.payload).length ≠ groups ∨
        (groupTexts code.payload).any (·.length ≠ groupOctets) = true) := by
      simp only [not_or, not_not, List.any_eq_true, decide_eq_true_eq, not_exists, not_and]
      exact ⟨by simp [groupTexts], fun text htext => (groupTexts_plain _ text htext).1⟩
    unfold fromStr
    rw [if_neg (by simp [hascii]), hupper, splitOn_display]
    dsimp only
    rw [if_neg (by simp), if_neg hsizes, flatten_groupTexts, hread, ok_bind]
    obtain ⟨hsecret, htoken, -⟩ := code.payload_parts
    rw [← hsame] at hsecret htoken
    have hcode : (⟨⟨payload.val.take 16, by simp⟩, ⟨(payload.val.drop 16).take 16, by simp⟩⟩ :
        PresenceCode) = code := by
      rw [PresenceCode.mk.injEq]
      exact ⟨Subtype.ext hsecret, Subtype.ext htoken⟩
    simp only [hcode]
    rw [hsame, if_neg (by simp)]

end PresenceCode
end CredentialV2
end CbclPairing
