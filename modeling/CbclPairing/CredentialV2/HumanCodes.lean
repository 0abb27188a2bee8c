import CbclPairing.Bisection
import CbclPairing.CredentialV2.PresenceText
import CbclPairing.CredentialV2.TransferTexts
import Mathlib.Data.List.Lex
import Mathlib.Data.Set.Card
import Mathlib.SetTheory.Cardinal.Finite

/-! The three words that name a manual secret, and the round trips of both human codes. -/
namespace CbclPairing
namespace CredentialV2
open Codec Codec.Cbor Calls

namespace ManualWords

/-! ### Secrets and numbers -/

def secretPrefix : Bytes := ascii "SSPAIR-M1" ++ [0, 0, 0]

set_option maxRecDepth 2048 in
theorem manualSecret_eq {n : ℕ} (h : n < 2 ^ 30) {secret : Octets 16}
    (hsecret : secret.val = secretPrefix ++ beBytes 4 n) : manualSecret secret = true := by
  have hhead : ∀ high : UInt8, high.toNat < 64 → high &&& 0xc0 = 0 := by decide
  have hheader : secret.val.take 12 = secretPrefix := by
    rw [hsecret]
    exact List.take_left' rfl
  have hbyte : secret.val.getD 12 0 = UInt8.ofNat (n / 256 ^ 3) := by
    rw [hsecret]
    rfl
  rw [manualSecret, hheader, hbyte, hhead]
  · decide
  · rw [UInt8.toNat_ofNat']
    omega

/-- The secret of thirty bits. -/
def ofNumber (n : ℕ) (h : n < 2 ^ 30) : ManualWords :=
  ⟨⟨secretPrefix ++ beBytes 4 n, by rw [List.length_append, beBytes_length]; rfl⟩,
    manualSecret_eq h rfl⟩

def number (words : ManualWords) : ℕ := ofBe (words.val.val.drop 12)

@[simp] theorem number_ofNumber {n : ℕ} (h : n < 2 ^ 30) : (ofNumber n h).number = n := by
  have hdrop : (secretPrefix ++ beBytes 4 n).drop 12 = beBytes 4 n := List.drop_left' rfl
  show ofBe ((secretPrefix ++ beBytes 4 n).drop 12) = n
  rw [hdrop, ofBe_beBytes (by omega)]

set_option maxRecDepth 2048 in
theorem number_lt (words : ManualWords) : words.number < 2 ^ 30 := by
  have hhead : ∀ high : UInt8, (high &&& 0xc0 == 0) = true → high.toNat < 64 := by decide
  obtain ⟨⟨secret, hlength⟩, hsecret⟩ := words
  simp only [manualSecret, Bool.and_eq_true] at hsecret
  have hhigh := hhead _ hsecret.2
  have hdrop : secret.drop 12 = secret.getD 12 0 :: secret.drop 13 := by
    rw [List.getD_eq_getElem _ _ (by omega), ← List.drop_eq_getElem_cons]
  have hrest := ofBe_lt (secret.drop 13)
  have htail : (secret.drop 13).length = 3 := by simp [hlength]
  rw [htail] at hrest
  show ofBe (secret.drop 12) < 2 ^ 30
  rw [hdrop, ofBe_cons, htail]
  omega

@[simp] theorem ofNumber_number (words : ManualWords) :
    ofNumber words.number words.number_lt = words := by
  obtain ⟨⟨secret, hlength⟩, hsecret⟩ := words
  apply Subtype.ext
  apply Subtype.ext
  show secretPrefix ++ beBytes 4 (ofBe (secret.drop 12)) = secret
  have hheader : secret.take 12 = secretPrefix := by
    simp only [manualSecret, Bool.and_eq_true, beq_iff_eq] at hsecret
    exact hsecret.1
  have htail : beBytes 4 (ofBe (secret.drop 12)) = secret.drop 12 := by
    apply ofBe_injective
    · simp [hlength]
    · have hlt := ofBe_lt (secret.drop 12)
      rw [ofBe_beBytes (by simpa [hlength] using hlt)]
  rw [htail, ← hheader, List.take_append_drop]

theorem eq_iff_number {words words' : ManualWords} :
    words = words' ↔ words.number = words'.number := by
  constructor
  · rintro rfl
    rfl
  · intro h
    rw [← words.ofNumber_number, ← words'.ofNumber_number]
    simp only [h]

/-- Four random octets give thirty bits. -/
def fromCsprng (random : Octets 4) : ManualWords :=
  ofNumber (ofBe random.val &&& 0x3fffffff) (Nat.and_lt_two_pow _ (by decide))

theorem fromCsprng_eq_iff {random : Octets 4} {words : ManualWords} :
    fromCsprng random = words ↔ ofBe random.val % 2 ^ 30 = words.number := by
  rw [eq_iff_number, fromCsprng, number_ofNumber,
    show (0x3fffffff : ℕ) = 2 ^ 30 - 1 by norm_num, Nat.and_two_pow_sub_one_eq_mod]

/-- The octets that give a secret differ in their first two bits alone. -/
theorem ncard_fromCsprng (words : ManualWords) :
    {random | fromCsprng random = words}.ncard = 4 := by
  have hnumber := words.number_lt
  let random (k : Fin 4) : Octets 4 := ⟨beBytes 4 (words.number + k * 2 ^ 30), beBytes_length _ _⟩
  have hvalue : ∀ k, ofBe (random k).val = words.number + k * 2 ^ 30 := by
    intro k
    exact ofBe_beBytes (by omega)
  have hinjective : Function.Injective random := by
    intro k k' h
    have hsame := (hvalue k).symm.trans ((congrArg (fun r => ofBe r.val) h).trans (hvalue k'))
    omega
  have hrange : {random | fromCsprng random = words} = Set.range random := by
    ext r
    rw [Set.mem_ofPred_eq, fromCsprng_eq_iff]
    constructor
    · intro h
      have hlt := ofBe_lt r.val
      rw [Octets.length_val] at hlt
      refine ⟨⟨ofBe r.val / 2 ^ 30, by omega⟩, Subtype.ext (ofBe_injective (by simp) ?_)⟩
      rw [hvalue]
      show words.number + ofBe r.val / 2 ^ 30 * 2 ^ 30 = ofBe r.val
      omega
    · rintro ⟨k, rfl⟩
      rw [hvalue]
      omega
  rw [hrange, ← Nat.card_coe_set_eq, Nat.card_range_of_injective hinjective, Nat.card_fin]

/-! ### Words -/

def maxPhrase : ℕ := 128

/-- What the program relies on of the English list: its words are distinct and sorted by
their octets, of lower-case letters, and of at most eight of them. -/
structure WordList (wordList : Fin 2048 → Bytes) : Prop where
  sorted : StrictMono fun i => (wordList i).map UInt8.toNat
  nonempty : ∀ i, wordList i ≠ []
  lowercase : ∀ i, ∀ b ∈ wordList i, isLowercase b = true
  length_le : ∀ i, (wordList i).length ≤ 8

/-- `slice::binary_search` in the list. -/
def binarySearch (wordList : Fin 2048 → Bytes) (word : Bytes) : Option ℕ :=
  Bisection.search (fun i => (wordList (Fin.ofNat 2048 i)).map UInt8.toNat)
    (word.map UInt8.toNat) 2049 0 2048

def isSeparator (b : UInt8) : Bool := b == 32 || b == 9 || b == 13 || b == 10

def phraseWords (lower : Bytes) : List Bytes :=
  (lower.splitOnP isSeparator).filter fun word => word != []

/-- Look up the next words of a phrase, eleven bits for each. -/
def readWords (wordList : Fin 2048 → Bytes) :
    ℕ → List Bytes → ℕ → Except ManualError (ℕ × List Bytes)
  | 0, words, bits => .ok (bits, words)
  | _ + 1, [], _ => .error .schema
  | count + 1, word :: words, bits =>
    match binarySearch wordList word with
    | none => .error .schema
    | some index => readWords wordList count words (bits <<< 11 ||| index)

variable [Primitives]

/-- `FromStr`. -/
def fromStr (wordList : Fin 2048 → Bytes) (input : Bytes) : Except ManualError ManualWords :=
  if maxPhrase < input.length then .error .oversize
  else if !isAscii input then .error .encoding
  else do
    let (bits, rest) ← readWords wordList 3 (phraseWords (input.map toAsciiLowercase)) 0
    if rest ≠ [] then .error .schema
    else
      let n := (bits >>> 3) % 2 ^ 32
      if checksum n ≠ bits &&& 7 then .error .checksum
      else .ok (fromCsprng ⟨beBytes 4 n, beBytes_length 4 n⟩)

/-- The thirty bits of the secret and the three of the checksum. -/
def bits (words : ManualWords) : ℕ := words.number * 8 + checksum words.number

/-- The words of a secret, in order. -/
def texts (wordList : Fin 2048 → Bytes) (words : ManualWords) : List Bytes :=
  [22, 11, 0].map fun shift => wordList (Fin.ofNat 2048 (words.bits >>> shift))

set_option maxRecDepth 2048 in
theorem checksum_lt (n : ℕ) : checksum n < 8 := by
  have hshift : ∀ octet : UInt8, (octet >>> 5).toNat < 8 := by decide
  exact hshift _

theorem encode_eq (wordList : Fin 2048 → Bytes) (words : ManualWords) :
    words.encode wordList = [32].intercalate (words.texts wordList) := by
  have hbits : ofBe (words.val.val.drop 12) <<< 3 ||| checksum (ofBe (words.val.val.drop 12)) =
      words.bits := by
    rw [← Nat.shiftLeft_add_eq_or_of_lt (checksum_lt _), Nat.shiftLeft_eq]
    rfl
  unfold encode texts
  simp only [hbits, List.map_cons, List.map_nil, List.intercalate_cons_cons,
    List.intercalate_singleton, List.append_assoc]
  rfl

/-! ### Looking words up -/

variable {wordList : Fin 2048 → Bytes}

omit [Primitives] in
theorem binarySearch_eq_some (h : WordList wordList) {word : Bytes} {index : ℕ} :
    binarySearch wordList word = some index ↔
      index < 2048 ∧ wordList (Fin.ofNat 2048 index) = word := by
  have hincreasing : StrictMonoOn (fun i => (wordList (Fin.ofNat 2048 i)).map UInt8.toNat)
      (Set.Iio 2048) := by
    intro i hi j hj hij
    apply h.sorted
    rw [Fin.lt_def]
    simpa [Nat.mod_eq_of_lt (Set.mem_Iio.mp hi), Nat.mod_eq_of_lt (Set.mem_Iio.mp hj)] using hij
  have hinjective : Function.Injective (List.map UInt8.toNat) :=
    List.map_injective_iff.mpr fun _ _ => UInt8.toNat_inj.mp
  unfold binarySearch
  rw [Bisection.search_eq_some hincreasing, hinjective.eq_iff]

omit [Primitives] in
/-- Reading words collects their indices as digits. -/
theorem readWords_eq_ok (h : WordList wordList) {count bits bits' : ℕ} {words rest : List Bytes} :
    readWords wordList count words bits = .ok (bits', rest) ↔ ∃ indices : List ℕ,
      indices.length = count ∧ (∀ i ∈ indices, i < 2048) ∧
      words = indices.map (fun i => wordList (Fin.ofNat 2048 i)) ++ rest ∧
      bits' = indices.foldl (fun bits i => bits * 2048 + i) bits := by
  induction count generalizing words bits with
  | zero =>
    simp only [readWords, Except.ok.injEq, Prod.mk.injEq, List.length_eq_zero_iff,
      exists_eq_left, List.map_nil, List.nil_append, List.foldl_nil]
    constructor
    · rintro ⟨rfl, rfl⟩
      exact ⟨(by intros; contradiction), rfl, rfl⟩
    · rintro ⟨-, rfl, rfl⟩
      exact ⟨rfl, rfl⟩
  | succ count ih =>
    cases words with
    | nil =>
      simp only [readWords, reduceCtorEq, false_iff, not_exists]
      rintro (- | ⟨index, indices⟩) ⟨hlength, -, hwords, -⟩
      · simp at hlength
      · simp at hwords
    | cons word words =>
      have hshift : ∀ index < 2048, bits <<< 11 ||| index = bits * 2048 + index := by
        intro index hindex
        rw [← Nat.shiftLeft_add_eq_or_of_lt hindex, Nat.shiftLeft_eq]
      constructor
      · intro hread
        unfold readWords at hread
        cases hword : binarySearch wordList word with
        | none => simp [hword] at hread
        | some index =>
          obtain ⟨hindex, rfl⟩ := (binarySearch_eq_some h).mp hword
          simp only [hword, hshift index hindex] at hread
          obtain ⟨indices, hlength, hsmall, rfl, rfl⟩ := ih.mp hread
          exact ⟨index :: indices, by simp [hlength],
            List.forall_mem_cons.mpr ⟨hindex, hsmall⟩, rfl, rfl⟩
      · rintro ⟨- | ⟨index, indices⟩, hlength, hsmall, hwords, hbits⟩
        · simp at hlength
        · obtain ⟨hindex, hsmall⟩ := List.forall_mem_cons.mp hsmall
          obtain ⟨rfl, rfl⟩ := List.cons.inj hwords
          unfold readWords
          rw [(binarySearch_eq_some h).mpr ⟨hindex, rfl⟩]
          dsimp only
          rw [hshift index hindex]
          exact ih.mpr ⟨indices, by simpa using hlength, hsmall, rfl, hbits⟩

theorem bits_lt (words : ManualWords) : words.bits < 2 ^ 33 := by
  have hchecksum := checksum_lt words.number
  have hnumber := words.number_lt
  unfold bits
  omega

theorem texts_eq {words : ManualWords} {i j k : ℕ} (hj : j < 2048) (hk : k < 2048)
    (h : words.bits = (i * 2048 + j) * 2048 + k) :
    words.texts wordList = [i, j, k].map fun n => wordList (Fin.ofNat 2048 n) := by
  have hfirst : Fin.ofNat 2048 (words.bits >>> 22) = Fin.ofNat 2048 i := by
    apply Fin.ext
    rw [Fin.val_ofNat, Fin.val_ofNat, Nat.shiftRight_eq_div_pow]
    omega
  have hsecond : Fin.ofNat 2048 (words.bits >>> 11) = Fin.ofNat 2048 j := by
    apply Fin.ext
    rw [Fin.val_ofNat, Fin.val_ofNat, Nat.shiftRight_eq_div_pow]
    omega
  have hthird : Fin.ofNat 2048 (words.bits >>> 0) = Fin.ofNat 2048 k := by
    apply Fin.ext
    rw [Fin.val_ofNat, Fin.val_ofNat, Nat.shiftRight_zero]
    omega
  simp only [texts, List.map_cons, List.map_nil, hfirst, hsecond, hthird]

/-- The checks behind the lookup, for bits that three words give. -/
theorem checked_iff {bits : ℕ} (hbits : bits < 2 ^ 33) {words : ManualWords} :
    checksum ((bits >>> 3) % 2 ^ 32) = bits &&& 7 ∧
      fromCsprng ⟨beBytes 4 ((bits >>> 3) % 2 ^ 32), beBytes_length 4 _⟩ = words ↔
        words.bits = bits := by
  have hmask : bits &&& 7 = bits % 8 := Nat.and_two_pow_sub_one_eq_mod bits 3
  have hshift : (bits >>> 3) % 2 ^ 32 = bits / 8 := by
    rw [Nat.shiftRight_eq_div_pow]
    omega
  have hbytes : ofBe (beBytes 4 (bits / 8)) = bits / 8 := ofBe_beBytes (by omega)
  have hchecksum := checksum_lt words.number
  rw [fromCsprng_eq_iff, hmask]
  simp only [hshift, hbytes]
  unfold ManualWords.bits
  constructor
  · rintro ⟨hsum, hnumber⟩
    rw [Nat.mod_eq_of_lt (by omega)] at hnumber
    rw [← hnumber, hsum]
    omega
  · rintro hsame
    have hnumber : bits / 8 = words.number := by omega
    rw [hnumber, Nat.mod_eq_of_lt words.number_lt]
    omega

/-- A phrase is accepted where its words, in lower case, are those of what is read. -/
theorem fromStr_eq_ok (h : WordList wordList) {input : Bytes} {words : ManualWords} :
    fromStr wordList input = .ok words ↔ input.length ≤ maxPhrase ∧ isAscii input = true ∧
      phraseWords (input.map toAsciiLowercase) = words.texts wordList := by
  unfold fromStr
  simp only [guard_eq_ok, except_bind_eq_ok, Prod.exists, not_lt, not_not, Bool.not_eq_true',
    Bool.not_eq_false, Except.ok.injEq]
  apply and_congr_right
  intro _
  apply and_congr_right
  intro _
  constructor
  · rintro ⟨bits, rest, hread, rfl, hchecked⟩
    obtain ⟨indices, hlength, hsmall, hphrase, hbits⟩ := (readWords_eq_ok h).mp hread
    obtain ⟨i, j, k, rfl⟩ := List.length_eq_three.mp hlength
    simp only [List.forall_mem_cons, List.not_mem_nil, false_imp_iff, implies_true, and_true]
      at hsmall
    obtain ⟨hi, hj, hk⟩ := hsmall
    simp only [List.foldl_cons, List.foldl_nil, zero_mul, zero_add] at hbits
    have hsame : words.bits = bits := (checked_iff (by omega)).mp hchecked
    rw [hphrase, List.append_nil, texts_eq hj hk (hsame.trans hbits)]
  · intro hphrase
    have hlt := words.bits_lt
    have hi : words.bits / 4194304 < 2048 := by omega
    have hj : words.bits / 2048 % 2048 < 2048 := Nat.mod_lt _ (by decide)
    have hk : words.bits % 2048 < 2048 := Nat.mod_lt _ (by decide)
    have hbits : words.bits =
        (words.bits / 4194304 * 2048 + words.bits / 2048 % 2048) * 2048 + words.bits % 2048 := by
      omega
    refine ⟨words.bits, [], ?_, rfl, (checked_iff hlt).mpr rfl⟩
    rw [readWords_eq_ok h, hphrase, texts_eq hj hk hbits]
    refine ⟨_, rfl, ?_, (List.append_nil _).symm, ?_⟩
    · simp only [List.forall_mem_cons, List.not_mem_nil, false_imp_iff, implies_true, and_true]
      exact ⟨hi, hj, hk⟩
    · simpa using hbits

set_option maxRecDepth 2048 in
/-- The text of three words: it is short, of plain letters and blanks, and is cut into the
same words. -/
theorem encode_plain (h : WordList wordList) (words : ManualWords) :
    (words.encode wordList).length ≤ maxPhrase ∧ isAscii (words.encode wordList) = true ∧
      phraseWords ((words.encode wordList).map toAsciiLowercase) = words.texts wordList := by
  have hlower : ∀ b, isLowercase b = true →
      b.toNat < 128 ∧ toAsciiLowercase b = b ∧ isSeparator b = false := by decide
  obtain ⟨i, j, k, htexts⟩ : ∃ i j k, words.texts wordList = [wordList i, wordList j, wordList k] :=
    ⟨_, _, _, rfl⟩
  have hencode : words.encode wordList =
      wordList i ++ 32 :: (wordList j ++ 32 :: wordList k) := by
    rw [encode_eq, htexts]
    simp [List.intercalate_cons_cons]
  have hplain : ∀ b ∈ words.encode wordList, b.toNat < 128 ∧ toAsciiLowercase b = b := by
    intro b hb
    simp only [hencode, List.mem_append, List.mem_cons] at hb
    rcases hb with hb | rfl | hb | rfl | hb
    · exact (hlower b (h.lowercase i b hb)).imp_right And.left
    · decide
    · exact (hlower b (h.lowercase j b hb)).imp_right And.left
    · decide
    · exact (hlower b (h.lowercase k b hb)).imp_right And.left
  have hwhole : ∀ n, ∀ b ∈ wordList n, isSeparator b = false :=
    fun n b hb => (hlower b (h.lowercase n b hb)).2.2
  refine ⟨?_, ?_, ?_⟩
  · have hi := h.length_le i
    have hj := h.length_le j
    have hk := h.length_le k
    rw [hencode, maxPhrase]
    simp only [List.length_append, List.length_cons]
    omega
  · rw [isAscii, List.all_eq_true]
    exact fun b hb => decide_eq_true (hplain b hb).1
  · have hmap : (words.encode wordList).map toAsciiLowercase = words.encode wordList :=
      (List.map_congr_left fun b hb => (hplain b hb).2).trans (List.map_id _)
    rw [hmap, hencode, phraseWords,
      List.splitOnP_append_cons_of_forall_mem (hwhole i) 32 rfl,
      List.splitOnP_append_cons_of_forall_mem (hwhole j) 32 rfl,
      List.splitOnP_eq_singleton (hwhole k), htexts]
    simp [h.nonempty]

theorem fromStr_encode (h : WordList wordList) (words : ManualWords) :
    fromStr wordList (words.encode wordList) = .ok words :=
  (fromStr_eq_ok h).mpr (words.encode_plain h)

end ManualWords

/-! ### Both codes -/

/-- Bound both texts, then recognise the words and the bootstrap. -/
def ManualBootstrap.recognisePair [Primitives] (decode : ℕ → Bytes → Option Bytes)
    (wordList : Fin 2048 → Bytes) (bootstrap words : Bytes) (now : UInt64) :
    Except ManualError (Carrier × PresenceCode) :=
  if maxText < bootstrap.length ∨ ManualWords.maxPhrase < words.length then .error .oversize
  else do
    let words ← ManualWords.fromStr wordList words
    let bootstrap ← recognise decode bootstrap now
    .ok (bootstrap.carrier, ⟨words.val, bootstrap.claimToken⟩)

variable [Primitives]

/-- The texts of a live bootstrap and of three words hand over carrier and secrets. -/
theorem ManualBootstrap.recognisePair_encode {decode : ℕ → Bytes → Option Bytes}
    (hdecode : UnpaddedDecoder decode) {wordList : Fin 2048 → Bytes}
    (hlist : ManualWords.WordList wordList) {carrier : Carrier} {claimToken : ClaimToken}
    {now : UInt64} {b : ManualBootstrap} (hnew : new carrier claimToken now = .ok b)
    (words : ManualWords) :
    recognisePair decode wordList (textPrefix ++ base64Url b.decoded) (words.encode wordList) now =
      .ok (carrier, ⟨words.val, claimToken⟩) := by
  obtain ⟨-, rfl⟩ := new_eq_ok.mp hnew
  have hsize := (words.encode_plain hlist).1
  unfold recognisePair
  rw [if_neg (not_or.mpr ⟨not_lt.mpr (text_length_le _), not_lt.mpr hsize⟩),
    ManualWords.fromStr_encode hlist, ok_bind, recognise_encode hdecode hnew, ok_bind]

/-- Both codes are read back; an accepted text is, up to case and blanks, the one text of
what is read; and the random octets of a manual secret name each secret equally often. -/
theorem human_codes_round_trip {wordList : Fin 2048 → Bytes}
    (hlist : ManualWords.WordList wordList) :
    (∀ code : PresenceCode, PresenceCode.fromStr code.display = .ok code) ∧
    (∀ input code, PresenceCode.fromStr input = .ok code →
      input.map toAsciiUppercase = code.display) ∧
    (∀ words : ManualWords, ManualWords.fromStr wordList (words.encode wordList) = .ok words) ∧
    (∀ input words, ManualWords.fromStr wordList input = .ok words →
      words.encode wordList =
        [32].intercalate (ManualWords.phraseWords (input.map toAsciiLowercase))) ∧
    (∀ words : ManualWords, {random | ManualWords.fromCsprng random = words}.ncard = 4) ∧
    Function.Injective PresenceCode.display ∧
    Function.Injective (ManualWords.encode wordList) := by
  have hcode : ∀ code : PresenceCode, PresenceCode.fromStr code.display = .ok code :=
    fun code => PresenceCode.fromStr_eq_ok.mpr code.display_plain
  refine ⟨hcode, ?_, ManualWords.fromStr_encode hlist, ?_, ManualWords.ncard_fromCsprng, ?_, ?_⟩
  · intro input code h
    exact (PresenceCode.fromStr_eq_ok.mp h).2
  · intro input words h
    rw [ManualWords.encode_eq, ((ManualWords.fromStr_eq_ok hlist).mp h).2.2]
  · intro code code' h
    exact Except.ok.inj ((hcode code).symm.trans ((congrArg _ h).trans (hcode code')))
  · intro words words' h
    have hread := ManualWords.fromStr_encode hlist words
    rw [h, ManualWords.fromStr_encode hlist words'] at hread
    exact (Except.ok.inj hread).symm

end CredentialV2

/-! ### A list that begins as the English one -/

namespace CredentialV2
open Codec

attribute [local instance] Primitives.transparent

namespace ManualWords

/-- Octets with the given values. -/
def octetsOf (word : List ℕ) : Bytes := word.map UInt8.ofNat

/-- The first eight words of the list, and three letters behind a `b` for the others. -/
def sampleLetters (n : ℕ) : List ℕ :=
  if n < 8 then
    (["abandon", "ability", "able", "about", "above", "absent", "absorb", "abstract"].getD n
      "").toList.map Char.toNat
  else [98, 97 + n / 169, 97 + n / 13 % 13, 97 + n % 13]

def sampleList (i : Fin 2048) : Bytes := octetsOf (sampleLetters i)

theorem sampleLetters_plain {n : ℕ} (h : n < 2048) : sampleLetters n ≠ [] ∧
    (sampleLetters n).length ≤ 8 ∧ ∀ letter ∈ sampleLetters n, 97 ≤ letter ∧ letter ≤ 122 := by
  by_cases hhead : n < 8
  · clear h
    revert n
    decide
  · unfold sampleLetters
    rw [if_neg hhead]
    simp only [List.forall_mem_cons, List.not_mem_nil, false_imp_iff, implies_true, and_true]
    refine ⟨List.cons_ne_nil _ _, by simp, ?_, ?_, ?_, ?_⟩ <;> omega

theorem sampleLetters_lt {m n : ℕ} (h : m < n) : sampleLetters m < sampleLetters n := by
  by_cases hn : n < 8
  · have hhead : ∀ n < 8, ∀ m < n, sampleLetters m < sampleLetters n := by decide
    exact hhead n hn m h
  · by_cases hm : m < 8
    · have hfirst : ∀ m < 8, ∀ rest : List ℕ, sampleLetters m < 98 :: rest := by
        intro m hm rest
        interval_cases m <;> exact List.cons_lt_cons_iff.mpr (.inl (by decide))
      unfold sampleLetters
      rw [if_neg hn]
      exact hfirst m hm _
    · simp only [sampleLetters, if_neg hm, if_neg hn, List.cons_lt_cons_iff, lt_irrefl,
        true_and, false_or]
      omega

theorem sampleList_letters (i : Fin 2048) : (sampleList i).map UInt8.toNat = sampleLetters i := by
  rw [sampleList, octetsOf, List.map_map]
  refine (List.map_congr_left fun letter hletter => ?_).trans (List.map_id _)
  have hletter := (sampleLetters_plain i.isLt).2.2 letter hletter
  show (UInt8.ofNat letter).toNat = letter
  rw [UInt8.toNat_ofNat']
  omega

theorem wordList_sample : WordList sampleList where
  sorted := by
    intro i j hij
    show (sampleList i).map UInt8.toNat < (sampleList j).map UInt8.toNat
    rw [sampleList_letters, sampleList_letters]
    exact sampleLetters_lt hij
  nonempty i h := by
    have hletters := sampleList_letters i
    rw [h] at hletters
    exact (sampleLetters_plain i.isLt).1 hletters.symm
  lowercase i b hb := by
    have hletter : b.toNat ∈ sampleLetters i := by
      rw [← sampleList_letters]
      exact List.mem_map_of_mem hb
    have hrange := (sampleLetters_plain i.isLt).2.2 _ hletter
    simp only [isLowercase, Bool.and_eq_true, decide_eq_true_eq, UInt8.le_iff_toNat_le]
    exact hrange
  length_le i := by
    rw [← List.length_map (f := UInt8.toNat), sampleList_letters]
    exact (sampleLetters_plain i.isLt).2.1

end ManualWords

theorem human_codes_round_trip_sample :
    ManualWords.fromStr ManualWords.sampleList (ascii "abandon abandon about") =
      .ok (ManualWords.fromCsprng ⟨[0, 0, 0, 0], rfl⟩) ∧
    {random | ManualWords.fromCsprng random =
      ManualWords.fromCsprng ⟨[192, 0, 0, 0], rfl⟩}.ncard = 4 := by
  obtain ⟨-, -, hwords, -, hrandom, -⟩ := human_codes_round_trip ManualWords.wordList_sample
  refine ⟨?_, hrandom _⟩
  have htext : (ManualWords.fromCsprng ⟨[0, 0, 0, 0], rfl⟩).encode ManualWords.sampleList =
      ascii "abandon abandon about" := by decide
  rw [← htext]
  exact hwords _

end CredentialV2
end CbclPairing
