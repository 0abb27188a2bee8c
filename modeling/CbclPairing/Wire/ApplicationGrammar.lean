import CbclPairing.Separated
import CbclPairing.Wire.Codecs

/-! Application identifiers of version 1 as the grammar file derives them, and the
recogniser that cuts at slashes and dots instead. -/
namespace CbclPairing
namespace Wire
open Codec Codec.Cbor Separated Computability

/-! ### The grammar -/

namespace Abnf

def alpha : Language UInt8 := symbol fun b => (0x41 ≤ b && b ≤ 0x5a) || (0x61 ≤ b && b ≤ 0x7a)
def digit : Language UInt8 := symbol fun b => 0x30 ≤ b && b ≤ 0x39
def hyphen : Language UInt8 := symbol (· == 0x2d)

/-- `ALPHA / (ALPHA *(ALPHA / DIGIT / "-") (ALPHA / DIGIT))` -/
def dnsLabel : Language UInt8 := alpha + alpha * (alpha + digit + hyphen)∗ * (alpha + digit)

/-- `dns-label 1*("." dns-label)` -/
def reversedDomain : Language UInt8 :=
  dnsLabel * (({[0x2e]} * dnsLabel) * ({[0x2e]} * dnsLabel)∗)

/-- `ALPHA *(ALPHA / DIGIT / "-")` -/
def profile : Language UInt8 := alpha * (alpha + digit + hyphen)∗

/-- `DIGIT / (DIGIT DIGIT)` -/
def version : Language UInt8 := digit + digit * digit

/-- `reversed-domain "/" profile "/v" version`, the letter in lower case. -/
def applicationId : Language UInt8 :=
  reversedDomain * {[0x2f]} * profile * {[0x2f, 0x76]} * version

end Abnf

/-! ### Labels, profiles and versions -/

theorem alpha_eq : Abnf.alpha = symbol isAsciiAlphabetic := rfl

theorem digit_eq : Abnf.digit = symbol isAsciiDigit := rfl

theorem alphanumeric_eq : Abnf.alpha + Abnf.digit = symbol isAsciiAlphanumeric :=
  (symbol_or isAsciiAlphabetic isAsciiDigit).symm

theorem inner_eq : Abnf.alpha + Abnf.digit + Abnf.hyphen =
    symbol fun b => isAsciiAlphanumeric b || b == 45 := by
  rw [alphanumeric_eq]
  exact (symbol_or isAsciiAlphanumeric (· == 45)).symm

theorem mem_dnsLabel {label : Bytes} :
    label ∈ Abnf.dnsLabel ↔
      (∃ b, isAsciiAlphabetic b = true ∧ label = [b]) ∨
      ∃ first middle last, isAsciiAlphabetic first = true ∧
        (middle.all fun b => isAsciiAlphanumeric b || b == 45) = true ∧
        isAsciiAlphanumeric last = true ∧ label = first :: (middle ++ [last]) := by
  rw [Abnf.dnsLabel, Language.mem_add, inner_eq, alphanumeric_eq, mem_mul_symbol, alpha_eq,
    mem_symbol]
  apply or_congr Iff.rfl
  constructor
  · rintro ⟨before, last, hbefore, hlast, rfl⟩
    obtain ⟨first, middle, hfirst, hmiddle, rfl⟩ := mem_symbol_mul.mp hbefore
    exact ⟨first, middle, last, hfirst, mem_kstar_symbol.mp hmiddle, hlast, rfl⟩
  · rintro ⟨first, middle, last, hfirst, hmiddle, hlast, rfl⟩
    exact ⟨first :: middle, last,
      mem_symbol_mul.mpr ⟨first, middle, hfirst, mem_kstar_symbol.mpr hmiddle, rfl⟩, hlast, rfl⟩

/-- A label has no octet, one, or a first and a last one around its middle. -/
theorem validDnsLabel_iff (label : Bytes) :
    validDnsLabel label = true ↔ label ∈ Abnf.dnsLabel := by
  rw [mem_dnsLabel]
  cases label with
  | nil => simp [validDnsLabel]
  | cons first rest =>
    rcases List.eq_nil_or_concat rest with rfl | ⟨middle, last, rfl⟩
    · simp [validDnsLabel]
    · have hlast : (first :: (middle ++ [last])).getLast? = some last := by
        rw [← List.cons_append, List.getLast?_concat]
      simp [validDnsLabel, hlast]

theorem mem_profile {value : Bytes} :
    value ∈ Abnf.profile ↔
      (value.head?.any isAsciiAlphabetic && value.all fun b => isAsciiAlphanumeric b || b == 45) =
        true := by
  rw [Abnf.profile, inner_eq, alpha_eq, mem_symbol_mul]
  cases value with
  | nil => simp
  | cons first rest =>
    have hfirst : isAsciiAlphabetic first = true → isAsciiAlphanumeric first = true := by
      intro h
      rw [isAsciiAlphanumeric, h, Bool.true_or]
    simp only [mem_kstar_symbol, List.head?_cons, Option.any_some, List.all_cons,
      Bool.and_eq_true, Bool.or_eq_true, List.cons.injEq]
    constructor
    · rintro ⟨a, rest', ha, hrest, rfl, rfl⟩
      exact ⟨ha, .inl (hfirst ha), hrest⟩
    · rintro ⟨ha, -, hrest⟩
      exact ⟨first, rest, ha, hrest, rfl, rfl⟩

theorem mem_version {digits : Bytes} :
    digits ∈ Abnf.version ↔
      1 ≤ digits.length ∧ digits.length ≤ 2 ∧ digits.all isAsciiDigit = true := by
  rw [Abnf.version, Language.mem_add, digit_eq, mem_symbol, mem_symbol_mul]
  rcases digits with _ | ⟨a, _ | ⟨b, _ | ⟨c, rest⟩⟩⟩
  · simp
  · simp [mem_symbol]
  · simp [mem_symbol]
  · simp [mem_symbol]

/-! ### Cutting at slashes -/

theorem mem_applicationId {application : Bytes} :
    application ∈ Abnf.applicationId ↔
      ∃ domain ∈ Abnf.reversedDomain, ∃ profile ∈ Abnf.profile, ∃ digits ∈ Abnf.version,
        application = [(47 : UInt8)].intercalate [domain, profile, 118 :: digits] := by
  rw [Abnf.applicationId, Language.mem_mul]
  constructor
  · rintro ⟨_, hwithV, digits, hdigits, rfl⟩
    obtain ⟨_, hwithProfile, _, rfl, rfl⟩ := Language.mem_mul.mp hwithV
    obtain ⟨_, hwithSlash, profile, hprofile, rfl⟩ := Language.mem_mul.mp hwithProfile
    obtain ⟨domain, hdomain, _, rfl, rfl⟩ := Language.mem_mul.mp hwithSlash
    exact ⟨domain, hdomain, profile, hprofile, digits, hdigits, by simp⟩
  · rintro ⟨domain, hdomain, profile, hprofile, digits, hdigits, rfl⟩
    have hwithSlash : domain ++ [0x2f] ∈ Abnf.reversedDomain * {[0x2f]} :=
      Language.mem_mul.mpr ⟨domain, hdomain, [0x2f], rfl, rfl⟩
    have hwithProfile : domain ++ [0x2f] ++ profile ∈
        Abnf.reversedDomain * {[0x2f]} * Abnf.profile :=
      Language.mem_mul.mpr ⟨_, hwithSlash, profile, hprofile, rfl⟩
    exact ⟨_, Language.mem_mul.mpr ⟨_, hwithProfile, [0x2f, 0x76], rfl, rfl⟩, digits, hdigits,
      by simp⟩

theorem validApplicationId_eq_true {application : Bytes} :
    validApplicationId application = true ↔
      isAscii application = true ∧ ∃ domain profile digits,
        application.splitOn 47 = [domain, profile, 118 :: digits] ∧
          (2 ≤ (domain.splitOn 46).length ∧
            ∀ label ∈ domain.splitOn 46, validDnsLabel label = true) ∧
          (profile.head?.any isAsciiAlphabetic &&
            profile.all fun b => isAsciiAlphanumeric b || b == 45) = true ∧
          1 ≤ digits.length ∧ digits.length ≤ 2 ∧ digits.all isAsciiDigit = true := by
  rw [validApplicationId, Bool.and_eq_true]
  apply and_congr_right
  intro _
  split
  case h_1 domain profile version hsplit =>
    constructor
    · intro h
      simp only [Bool.and_eq_true, decide_eq_true_eq] at h
      obtain ⟨⟨⟨⟨hlength, hlabels⟩, hfirst⟩, hall⟩, hversion⟩ := h
      split at hversion
      · rename_i digits
        simp only [Bool.and_eq_true, decide_eq_true_eq] at hversion
        obtain ⟨⟨hshort, hlong⟩, hdigits⟩ := hversion
        exact ⟨domain, profile, digits, hsplit, ⟨hlength, List.all_eq_true.mp hlabels⟩,
          by rw [hfirst, hall, Bool.and_true], hshort, hlong, hdigits⟩
      · cases hversion
    · rintro ⟨domain', profile', digits, hsplit', ⟨hlength, hlabels⟩, hprofile, hdigits⟩
      rw [hsplit] at hsplit'
      cases hsplit'
      rw [Bool.and_eq_true] at hprofile
      simp only [Bool.and_eq_true, decide_eq_true_eq]
      exact ⟨⟨⟨⟨hlength, List.all_eq_true.mpr hlabels⟩, hprofile.1⟩, hprofile.2⟩,
        ⟨hdigits.1, hdigits.2.1⟩, hdigits.2.2⟩
  case h_2 hother =>
    constructor
    · intro h
      cases h
    · rintro ⟨domain, profile, digits, hsplit, -⟩
      exact absurd hsplit (hother domain profile _)

/-! ### The octets of a derivation -/

/-- What a word of the grammar is made of, its separators apart. -/
def isInner (b : UInt8) : Bool := isAsciiAlphanumeric b || b == 45

theorem within_inner : Within (isInner · = true) (Abnf.alpha + Abnf.digit + Abnf.hyphen) := by
  rw [inner_eq]
  exact .symbol fun b hb => hb

theorem within_alpha : Within (isInner · = true) Abnf.alpha :=
  .symbol fun b (hb : isAsciiAlphabetic b = true) => by
    rw [isInner, isAsciiAlphanumeric, hb, Bool.true_or, Bool.true_or]

theorem within_digit : Within (isInner · = true) Abnf.digit :=
  .symbol fun b (hb : isAsciiDigit b = true) => by
    rw [isInner, isAsciiAlphanumeric, hb, Bool.or_true, Bool.true_or]

theorem within_dnsLabel : Within (isInner · = true) Abnf.dnsLabel :=
  within_alpha.add ((within_alpha.mul within_inner.kstar).mul (within_alpha.add within_digit))

theorem within_profile : Within (isInner · = true) Abnf.profile :=
  within_alpha.mul within_inner.kstar

theorem within_version : Within (isInner · = true) Abnf.version :=
  within_digit.add (within_digit.mul within_digit)

set_option maxRecDepth 4096 in
theorem isInner_octet : ∀ b, isInner b = true → b.toNat < 128 ∧ b ≠ 46 ∧ b ≠ 47 := by
  decide

theorem within_reversedDomain : Within (fun b => b.toNat < 128 ∧ b ≠ 47) Abnf.reversedDomain := by
  have hlabel : Within (fun b => b.toNat < 128 ∧ b ≠ 47) Abnf.dnsLabel :=
    within_dnsLabel.mono fun b hb => ⟨(isInner_octet b hb).1, (isInner_octet b hb).2.2⟩
  have hdotted : Within (fun b => b.toNat < 128 ∧ b ≠ 47) ({[0x2e]} * Abnf.dnsLabel) :=
    Within.mul (.literal (by simp)) hlabel
  exact hlabel.mul (hdotted.mul hdotted.kstar)

theorem mem_reversedDomain {domain : Bytes} :
    domain ∈ Abnf.reversedDomain ↔
      2 ≤ (domain.splitOn 46).length ∧
        ∀ label ∈ domain.splitOn 46, validDnsLabel label = true := by
  have hdot : Within (· ≠ 46) Abnf.dnsLabel :=
    within_dnsLabel.mono fun b hb => (isInner_octet b hb).2.1
  rw [Abnf.reversedDomain, mem_separated hdot]
  apply and_congr_right
  intro _
  exact forall₂_congr fun label _ => (validDnsLabel_iff label).symm

/-- A derivation is cut at its slashes into the parts it was put together from. -/
theorem splitOn_derivation {domain profile digits : Bytes} (hdomain : domain ∈ Abnf.reversedDomain)
    (hprofile : profile ∈ Abnf.profile) (hdigits : digits ∈ Abnf.version) :
    ([(47 : UInt8)].intercalate [domain, profile, 118 :: digits]).splitOn 47 =
      [domain, profile, 118 :: digits] := by
  apply List.splitOn_intercalate
  · intro part hpart hslash
    simp only [List.mem_cons, List.not_mem_nil, or_false] at hpart
    rcases hpart with rfl | rfl | rfl
    · exact (within_reversedDomain _ hdomain 47 hslash).2 rfl
    · exact (isInner_octet 47 (within_profile _ hprofile 47 hslash)).2.2 rfl
    · rcases List.mem_cons.mp hslash with heq | hslash
      · exact absurd heq (by decide)
      · exact (isInner_octet 47 (within_version _ hdigits 47 hslash)).2.2 rfl
  · exact List.cons_ne_nil domain _

theorem isAscii_derivation {domain profile digits : Bytes} (hdomain : domain ∈ Abnf.reversedDomain)
    (hprofile : profile ∈ Abnf.profile) (hdigits : digits ∈ Abnf.version) :
    isAscii ([(47 : UInt8)].intercalate [domain, profile, 118 :: digits]) = true := by
  rw [isAscii, List.all_eq_true]
  intro b hb
  simp only [intercalate_cons, List.map_cons, List.map_nil, List.flatten_cons, List.flatten_nil,
    List.append_nil, List.mem_append, List.mem_cons] at hb
  rw [decide_eq_true_eq]
  rcases hb with hb | (rfl | hb) | rfl | rfl | hb
  · exact (within_reversedDomain _ hdomain b hb).1
  · decide
  · exact (isInner_octet b (within_profile _ hprofile b hb)).1
  · decide
  · decide
  · exact (isInner_octet b (within_version _ hdigits b hb)).1

/-- The recogniser accepts the application identifiers of the grammar, and no others. -/
theorem validApplicationId_grammar (application : Bytes) :
    validApplicationId application = true ↔ application ∈ Abnf.applicationId := by
  rw [validApplicationId_eq_true, mem_applicationId]
  constructor
  · rintro ⟨-, domain, profile, digits, hsplit, hdomain, hprofile, hdigits⟩
    refine ⟨domain, mem_reversedDomain.mpr hdomain, profile, mem_profile.mpr hprofile, digits,
      mem_version.mpr hdigits, ?_⟩
    rw [← hsplit, List.intercalate_splitOn]
  · rintro ⟨domain, hdomain, profile, hprofile, digits, hdigits, rfl⟩
    refine ⟨isAscii_derivation hdomain hprofile hdigits, domain, profile, digits,
      splitOn_derivation hdomain hprofile hdigits, ?_, ?_, ?_⟩
    · exact mem_reversedDomain.mp hdomain
    · exact mem_profile.mp hprofile
    · exact mem_version.mp hdigits

end Wire
end CbclPairing
