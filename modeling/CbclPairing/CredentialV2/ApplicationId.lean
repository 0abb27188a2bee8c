import Mathlib.Data.Nat.Digits.Lemmas
import CbclPairing.CredentialV2.AllocatorRuns
import CbclPairing.PercentEncoding

/-! Application identifiers as a grammar, and why no identifier has two accepted
spellings. -/
namespace CbclPairing
namespace CredentialV2
open Codec Codec.Cbor PercentEncoding

/-! ### The grammar -/

structure Label (label : Bytes) : Prop where
  nonempty : label ≠ []
  length_le : label.length ≤ 63
  first : label.head? ≠ some 45
  last : label.getLast? ≠ some 45
  ldh : ∀ b ∈ label, isLowercase b = true ∨ isDigit b = true ∨ b = 45

def hostText (labels : List Bytes) : Bytes := [46].intercalate labels

/-- Dot-separated labels, of which the last is not a number. -/
structure Host (labels : List Bytes) : Prop where
  nonempty : labels ≠ []
  valid : ∀ label ∈ labels, Label label
  length_le : (hostText labels).length ≤ 253
  named : ∀ label ∈ labels.getLast?, ∃ b ∈ label, isDigit b = false

def Port (n : ℕ) : Prop := 0 < n ∧ n ≤ 65535 ∧ n ≠ 443

/-- The decimal digits of a number, the most significant first. -/
def decimalText (n : ℕ) : Bytes := (Nat.digits 10 n).reverse.map fun d => UInt8.ofNat (48 + d)

def authorityText (labels : List Bytes) : Option ℕ → Bytes
  | none => hostText labels
  | some n => hostText labels ++ 58 :: decimalText n

/-- An upper-case escape of an octet that does not stand for itself. -/
def escapes (high low : UInt8) : Bool :=
  isUpperHex high && isUpperHex low && !isUnreserved (hex high <<< 4 ||| hex low)

structure Segment (segment : Bytes) : Prop where
  nonempty : segment ≠ []
  escaped : Escaped isPchar escapes segment
  not_dot : segment ≠ [46]
  not_dots : segment ≠ [46, 46]

structure ApplicationId where
  labels : List Bytes
  port : Option ℕ
  segments : List Bytes
  host : Host labels
  port_valid : ∀ n ∈ port, Port n
  segments_nonempty : segments ≠ []
  segments_valid : ∀ segment ∈ segments, Segment segment

namespace ApplicationId

def origin (id : ApplicationId) : Bytes := ascii "https://" ++ authorityText id.labels id.port

def path (id : ApplicationId) : Bytes := 47 :: [47].intercalate id.segments

def text (id : ApplicationId) : Bytes := id.origin ++ id.path

end ApplicationId

/-! ### Hosts -/

theorem validLabel_iff {label : Bytes} : validLabel label = true ↔ Label label := by
  simp only [validLabel, Bool.and_eq_true, decide_eq_true_eq, bne_iff_ne, List.all_eq_true,
    Bool.or_eq_true, beq_iff_eq, or_assoc]
  constructor
  · rintro ⟨⟨⟨⟨hpos, hle⟩, hfirst⟩, hlast⟩, hldh⟩
    exact ⟨List.ne_nil_of_length_pos hpos, hle, hfirst, hlast, hldh⟩
  · rintro ⟨hne, hle, hfirst, hlast, hldh⟩
    exact ⟨⟨⟨⟨List.length_pos_of_ne_nil hne, hle⟩, hfirst⟩, hlast⟩, hldh⟩

theorem Label.not_mem_of {label : Bytes} (h : Label label) {b : UInt8}
    (hb : isLowercase b = false ∧ isDigit b = false ∧ b ≠ 45) : b ∉ label := by
  intro hmem
  obtain hlower | hdigit | rfl := h.ldh b hmem
  · cases hb.1.symm.trans hlower
  · cases hb.2.1.symm.trans hdigit
  · exact hb.2.2 rfl

/-- What holds of the separator and of each part holds of the whole. -/
theorem forall_mem_intercalate {q : UInt8 → Prop} {b : UInt8} {parts : List Bytes} (hb : q b)
    (hparts : ∀ part ∈ parts, ∀ x ∈ part, q x) : ∀ x ∈ [b].intercalate parts, q x := by
  induction parts with
  | nil => exact (by intros; contradiction)
  | cons part rest ih =>
    obtain ⟨hpart, hrest⟩ := List.forall_mem_cons.mp hparts
    cases rest with
    | nil => simpa using hpart
    | cons next rest =>
      rw [List.intercalate_cons_cons]
      simp only [List.mem_append, List.mem_singleton]
      rintro x ((hx | rfl) | hx)
      · exact hpart x hx
      · exact hb
      · exact ih hrest x hx

theorem validHost_iff {host : Bytes} :
    validHost host = true ↔ ∃ labels, Host labels ∧ host = hostText labels := by
  simp only [validHost, Bool.and_eq_true, decide_eq_true_eq, List.all_eq_true, validLabel_iff,
    Option.any_eq_true, Bool.not_eq_true', List.all_eq_false, Bool.not_eq_true]
  constructor
  · rintro ⟨⟨⟨-, hle⟩, hlabels⟩, last, hlast, hnamed⟩
    have hhost : hostText (host.splitOn 46) = host := List.intercalate_splitOn 46
    refine ⟨host.splitOn 46, ⟨List.splitOn_ne_nil _ _, hlabels, by rwa [hhost], ?_⟩, hhost.symm⟩
    intro label hlabel
    obtain rfl := Option.some.inj (hlast.symm.trans hlabel)
    exact hnamed
  · rintro ⟨labels, hhost, rfl⟩
    have hsplit : (hostText labels).splitOn 46 = labels :=
      List.splitOn_intercalate 46 (fun label hlabel => (hhost.valid label hlabel).not_mem_of
        (by decide)) hhost.nonempty
    rw [hsplit]
    obtain ⟨last, hlast⟩ := Option.isSome_iff_exists.mp
      (List.getLast?_isSome.mpr hhost.nonempty)
    refine ⟨⟨⟨?_, hhost.length_le⟩, hhost.valid⟩, last, hlast, hhost.named last hlast⟩
    by_contra hempty
    have hnil := List.length_eq_zero_iff.mp (Nat.eq_zero_of_not_pos hempty)
    rw [hnil, List.splitOn_nil] at hsplit
    exact (hhost.valid [] (by simp [← hsplit])).nonempty rfl

/-! ### Ports -/

theorem decimal_eq (digits : Bytes) :
    decimal digits = Nat.ofDigits 10 (digits.reverse.map fun b => b.toNat - 48) := by
  induction digits using List.reverseRecOn with
  | nil => rfl
  | append_singleton digits b ih =>
    rw [decimal, List.foldl_append, ← decimal, ih, List.reverse_append]
    simp only [List.foldl_cons, List.foldl_nil, List.reverse_singleton, List.singleton_append,
      List.map_cons, Nat.ofDigits_cons]
    ring

set_option maxRecDepth 2048 in
theorem digit_value {b : UInt8} (h : isDigit b = true) :
    UInt8.ofNat (48 + (b.toNat - 48)) = b ∧ b.toNat - 48 < 10 ∧ (b.toNat - 48 = 0 → b = 48) := by
  revert b
  decide

theorem isDigit_ofNat {d : ℕ} (h : d < 10) : isDigit (UInt8.ofNat (48 + d)) = true ∧
    (UInt8.ofNat (48 + d)).toNat - 48 = d ∧ (UInt8.ofNat (48 + d) = 48 → d = 0) := by
  revert d
  decide

theorem decimalText_digits {n : ℕ} : ∀ b ∈ decimalText n, isDigit b = true := by
  intro b hb
  obtain ⟨d, hd, rfl⟩ := List.mem_map.mp hb
  exact (isDigit_ofNat (Nat.digits_lt_base (by decide) (List.mem_reverse.mp hd))).1

theorem validPort_iff {port : Bytes} :
    validPort port = true ↔ ∃ n, Port n ∧ port = decimalText n := by
  simp only [validPort, Bool.and_eq_true, decide_eq_true_eq, bne_iff_ne, List.all_eq_true]
  constructor
  · rintro ⟨⟨⟨⟨⟨⟨hpos, -⟩, hfirst⟩, hdigits⟩, hle⟩, hzero⟩, htls⟩
    refine ⟨decimal port, ⟨Nat.pos_of_ne_zero hzero, hle, htls⟩, ?_⟩
    have hsmall : ∀ d ∈ port.reverse.map fun b => b.toNat - 48, d < 10 := by
      intro d hd
      obtain ⟨b, hb, rfl⟩ := List.mem_map.mp hd
      exact (digit_value (hdigits b (List.mem_reverse.mp hb))).2.1
    have hlast : ∀ h, (port.reverse.map fun b => b.toNat - 48).getLast h ≠ 0 := by
      intro h
      rw [List.getLast_map, List.getLast_reverse]
      intro hleading
      have hb := (digit_value (hdigits _ (List.head_mem _))).2.2 hleading
      exact hfirst (by rw [← hb, List.head?_eq_some_head])
    rw [decimalText, decimal_eq, Nat.digits_ofDigits 10 (by decide) _ hsmall hlast,
      ← List.map_reverse, List.reverse_reverse, List.map_map]
    refine (List.map_id port).symm.trans (List.map_congr_left fun b hb => ?_)
    exact (digit_value (hdigits b hb)).1.symm
  · rintro ⟨n, ⟨hpos, hle, htls⟩, rfl⟩
    have hdecimal : decimal (decimalText n) = n := by
      rw [decimal_eq, decimalText, ← List.map_reverse, List.reverse_reverse, List.map_map]
      have hvalues : (Nat.digits 10 n).map
          ((fun b => b.toNat - 48) ∘ fun d => UInt8.ofNat (48 + d)) = Nat.digits 10 n := by
        refine (List.map_congr_left fun d hd => ?_).trans (List.map_id _)
        exact (isDigit_ofNat (Nat.digits_lt_base (by decide) hd)).2.1
      rw [hvalues, Nat.ofDigits_digits]
    have hne : Nat.digits 10 n ≠ [] := Nat.digits_ne_nil_iff_ne_zero.mpr hpos.ne'
    have hlength : (decimalText n).length = (Nat.digits 10 n).length := by simp [decimalText]
    have hshort : (Nat.digits 10 n).length ≤ 5 := by
      rw [Nat.digits_length_le_iff (by decide)]
      omega
    rw [hdecimal, hlength]
    refine ⟨⟨⟨⟨⟨⟨List.length_pos_of_ne_nil hne, hshort⟩, ?_⟩, decimalText_digits⟩, hle⟩, hpos.ne'⟩,
      htls⟩
    intro hfirst
    have hhead : (decimalText n).head? =
        some (UInt8.ofNat (48 + (Nat.digits 10 n).getLast hne)) := by
      rw [decimalText, List.head?_map, List.head?_reverse, List.getLast?_eq_some_getLast hne,
        Option.map_some]
    rw [hhead] at hfirst
    have hsmall := Nat.digits_lt_base (b := 10) (by decide) (List.getLast_mem hne)
    exact Nat.getLast_digit_ne_zero 10 hpos.ne'
      ((isDigit_ofNat hsmall).2.2 (Option.some.inj hfirst))

/-! ### The authority -/

theorem takeWhile_of_not_mem {separator : UInt8} {before after : Bytes}
    (h : separator ∉ before) (hafter : after = [] ∨ after.head? = some separator) :
    (before ++ after).takeWhile (· != separator) = before := by
  have hbefore : ∀ b ∈ before, (b != separator) = true := by
    intro b hb
    rw [bne_iff_ne]
    rintro rfl
    exact h hb
  rw [List.takeWhile_append_of_pos hbefore]
  obtain rfl | hhead := hafter
  · simp
  · obtain ⟨rest, rfl⟩ := List.head?_eq_some_iff.mp hhead
    simp

theorem rsplitOnce_append {separator : UInt8} {before after : Bytes} (h : separator ∉ after) :
    rsplitOnce separator (before ++ separator :: after) = some (before, after) := by
  have hreverse : (before ++ separator :: after).reverse =
      after.reverse ++ separator :: before.reverse := by simp
  have hafter : ((before ++ separator :: after).reverse.takeWhile (· != separator)).reverse =
      after := by
    rw [hreverse, takeWhile_of_not_mem (by simpa using h) (.inr rfl), List.reverse_reverse]
  have hlength : (before ++ separator :: after).length - after.length - 1 = before.length := by
    simp only [List.length_append, List.length_cons]
    omega
  unfold rsplitOnce
  rw [if_pos (by simp), hafter]
  simp only [hlength, List.take_left']

theorem rsplitOnce_eq_some {separator : UInt8} {value before after : Bytes} :
    rsplitOnce separator value = some (before, after) ↔
      value = before ++ separator :: after ∧ separator ∉ after := by
  constructor
  · intro h
    have hmem : separator ∈ value := by
      unfold rsplitOnce at h
      split_ifs at h with hmem
      exact List.contains_iff_mem.mp hmem
    obtain ⟨tail, front, hvalue, htail⟩ := List.eq_append_cons_of_mem (List.mem_reverse.mpr hmem)
    have hvalue : value = front.reverse ++ separator :: tail.reverse := by
      rw [← List.reverse_inj, hvalue]
      simp
    have htail : separator ∉ tail.reverse := by simpa using htail
    rw [hvalue, rsplitOnce_append htail] at h
    obtain ⟨rfl, rfl⟩ := Prod.mk.inj (Option.some.inj h)
    exact ⟨hvalue, htail⟩
  · rintro ⟨rfl, hafter⟩
    exact rsplitOnce_append hafter

theorem rsplitOnce_eq_none {separator : UInt8} {value : Bytes} :
    rsplitOnce separator value = none ↔ separator ∉ value := by
  unfold rsplitOnce
  split_ifs with h
  · simpa using h
  · simpa using h

/-- The octets of an authority are of labels, dots, digits and one colon. -/
theorem authorityText_octets {labels : List Bytes} {port : Option ℕ} (h : Host labels) :
    ∀ b ∈ authorityText labels port,
      isLowercase b = true ∨ isDigit b = true ∨ b = 45 ∨ b = 46 ∨ b = 58 := by
  have hhost : ∀ b ∈ hostText labels,
      isLowercase b = true ∨ isDigit b = true ∨ b = 45 ∨ b = 46 ∨ b = 58 := by
    refine forall_mem_intercalate (by simp) fun label hlabel b hb => ?_
    obtain hlower | hdigit | hhyphen := (h.valid label hlabel).ldh b hb
    · exact .inl hlower
    · exact .inr (.inl hdigit)
    · exact .inr (.inr (.inl hhyphen))
  cases port with
  | none => exact hhost
  | some n =>
    intro b hb
    simp only [authorityText, List.mem_append, List.mem_cons] at hb
    obtain hb | rfl | hb := hb
    · exact hhost b hb
    · simp
    · exact .inr (.inl (decimalText_digits b hb))

theorem hostText_colon {labels : List Bytes} (h : Host labels) :
    (58 : UInt8) ∉ hostText labels := by
  refine fun hmem => forall_mem_intercalate (q := (· ≠ 58)) (by decide) ?_ 58 hmem rfl
  rintro label hlabel b hb rfl
  exact (h.valid label hlabel).not_mem_of (by decide) hb

theorem decimalText_colon {n : ℕ} : (58 : UInt8) ∉ decimalText n := by
  intro hmem
  exact absurd (decimalText_digits 58 hmem) (by decide)

/-- What stands between the scheme and the path. -/
theorem authority_iff {authority : Bytes} :
    (match rsplitOnce 58 authority with
      | some (host, port) => validHost host && validPort port
      | none => validHost authority) = true ↔
      ∃ labels port, Host labels ∧ (∀ n ∈ port, Port n) ∧
        authority = authorityText labels port := by
  constructor
  · intro h
    cases hsplit : rsplitOnce 58 authority with
    | none =>
      rw [hsplit] at h
      obtain ⟨labels, hlabels, rfl⟩ := validHost_iff.mp h
      exact ⟨labels, none, hlabels, (by intros; contradiction), rfl⟩
    | some parts =>
      obtain ⟨host, port⟩ := parts
      simp only [hsplit, Bool.and_eq_true] at h
      obtain ⟨labels, hlabels, rfl⟩ := validHost_iff.mp h.1
      obtain ⟨n, hn, rfl⟩ := validPort_iff.mp h.2
      obtain ⟨rfl, -⟩ := rsplitOnce_eq_some.mp hsplit
      refine ⟨labels, some n, hlabels, ?_, rfl⟩
      rintro _ ⟨⟩
      exact hn
  · rintro ⟨labels, port, hlabels, hport, rfl⟩
    have hhost := validHost_iff.mpr ⟨labels, hlabels, rfl⟩
    cases port with
    | none =>
      rw [authorityText, rsplitOnce_eq_none.mpr (hostText_colon hlabels)]
      exact hhost
    | some n =>
      rw [authorityText, rsplitOnce_append decimalText_colon]
      simp [hhost, validPort_iff.mpr ⟨n, hport n rfl, rfl⟩]

theorem https_length : (ascii "https://").length = 8 := rfl

theorem take_origin (authority path : Bytes) :
    (ascii "https://" ++ (authority ++ path)).take (8 + authority.length) =
        ascii "https://" ++ authority ∧
      (ascii "https://" ++ (authority ++ path)).drop (8 + authority.length) = path := by
  have hlength : (ascii "https://" ++ authority).length = 8 + authority.length := by
    rw [List.length_append, https_length]
  rw [← List.append_assoc]
  exact ⟨List.take_left' hlength, List.drop_left' hlength⟩

theorem splitHttps_eq_ok {value origin path : Bytes} :
    splitHttps value = .ok (origin, path) ↔
      (isAscii value = true ∧ (63 : UInt8) ∉ value ∧ (35 : UInt8) ∉ value) ∧
      (path = [] ∨ path.head? = some 47) ∧ ∃ labels port, Host labels ∧ (∀ n ∈ port, Port n) ∧
        origin = ascii "https://" ++ authorityText labels port ∧ value = origin ++ path := by
  have hclean : (!isAscii value || value.contains 63 || value.contains 35) = false ↔
      isAscii value = true ∧ (63 : UInt8) ∉ value ∧ (35 : UInt8) ∉ value := by
    simp [and_assoc]
  constructor
  · intro h
    unfold splitHttps at h
    split_ifs at h with hunclean hscheme
    rw [Bool.not_eq_true] at hunclean
    simp only [Bool.not_eq_true', Bool.not_eq_false] at hscheme
    obtain ⟨rest, rfl⟩ := List.isPrefixOf_iff_prefix.mp hscheme
    have hdrop : (ascii "https://" ++ rest).drop 8 = rest := List.drop_left' https_length
    simp only [hdrop] at h
    split_ifs at h with hauthority hvalid
    obtain ⟨rfl, rfl⟩ := Prod.mk.inj (Except.ok.inj h)
    obtain ⟨labels, port, hlabels, hport, htext⟩ := authority_iff.mp hvalid
    obtain ⟨htake, hdrop⟩ :=
      take_origin (rest.takeWhile (· != 47)) (rest.dropWhile (· != 47))
    rw [List.takeWhile_append_dropWhile] at htake hdrop
    refine ⟨hclean.mp hunclean, ?_, labels, port, hlabels, hport, by rw [htake, htext],
      (List.take_append_drop _ _).symm⟩
    rw [hdrop]
    have hhead := List.head?_dropWhile_not (· != (47 : UInt8)) rest
    cases hpath : (rest.dropWhile (· != 47)).head? with
    | none => exact .inl (List.head?_eq_none_iff.mp hpath)
    | some b =>
      rw [hpath] at hhead
      exact .inr (by simpa using hhead)
  · rintro ⟨hvalue, hpath, labels, port, hlabels, hport, rfl, rfl⟩
    have hoctets : ∀ b ∈ authorityText labels port, _ := authorityText_octets hlabels
    have hslash : (47 : UInt8) ∉ authorityText labels port :=
      fun hmem => absurd (hoctets 47 hmem) (by decide)
    have huser : (64 : UInt8) ∉ authorityText labels port :=
      fun hmem => absurd (hoctets 64 hmem) (by decide)
    have hne : authorityText labels port ≠ [] := by
      intro hempty
      have hvalid := authority_iff.mpr ⟨labels, port, hlabels, hport, hempty.symm⟩
      exact absurd hvalid (by decide)
    unfold splitHttps
    rw [if_neg (by rw [hclean.mpr hvalue]; decide), if_neg (by simp [List.append_assoc])]
    rw [List.append_assoc]
    have hdrop : (ascii "https://" ++ (authorityText labels port ++ path)).drop 8 =
        authorityText labels port ++ path := List.drop_left' https_length
    simp only [hdrop, takeWhile_of_not_mem hslash hpath]
    rw [if_neg (by simp [hne, huser])]
    refine (if_pos (authority_iff.mpr ⟨labels, port, hlabels, hport, rfl⟩)).trans ?_
    obtain ⟨htake, hdrop⟩ := take_origin (authorityText labels port) path
    rw [htake, hdrop]

/-! ### Paths -/

set_option maxRecDepth 2048 in
theorem escapes_octet {high low : UInt8} (h : escapes high low = true) :
    ∃ octet, octet? high low = some octet ∧ isUnreserved octet = false := by
  have hvalue : ∀ b, isUpperHex b = true → hexValue? b = some (hex b) := by decide
  simp only [escapes, Bool.and_eq_true, Bool.not_eq_true'] at h
  obtain ⟨⟨hhigh, hlow⟩, hreserved⟩ := h
  refine ⟨_, ?_, hreserved⟩
  rw [octet?, hvalue high hhigh, hvalue low hlow]
  rfl

set_option maxRecDepth 2048 in
theorem isPchar_plain {b : UInt8} (h : isPchar b = true) : b ≠ 37 ∧ b ≠ 47 := by
  revert b
  decide

theorem validPath_cons {b : UInt8} (h : b ≠ 37) (rest : Bytes) :
    validPath (b :: rest) = ((b == 47 || isPchar b) && validPath rest) := by
  conv_lhs => unfold validPath
  exact if_neg h

/-- The scan of a path goes on behind a slash. -/
theorem validPath_append (before after : Bytes) :
    validPath (before ++ 47 :: after) = (validPath before && validPath after) := by
  induction before using validPath.induct with
  | case1 =>
    rw [List.nil_append, validPath_cons (by decide)]
    rfl
  | case2 high low rest ih =>
    simp only [List.cons_append, validPath, if_true, ih, Bool.and_assoc]
  | case3 rest hshort =>
    have hslash : isUpperHex 47 = false := rfl
    rcases rest with _ | ⟨x, _ | ⟨y, tail⟩⟩
    · cases after <;> simp [validPath, hslash]
    · simp [validPath, hslash]
    · exact absurd rfl (hshort x y tail)
  | case4 b rest hb ih =>
    rw [List.cons_append, validPath_cons hb, validPath_cons hb, ih, Bool.and_assoc]

theorem validPath_intercalate {parts : List Bytes} :
    validPath ([47].intercalate parts) = parts.all validPath := by
  induction parts with
  | nil => rfl
  | cons part rest ih =>
    cases rest with
    | nil => simp
    | cons next rest =>
      rw [List.intercalate_cons_cons, List.append_assoc, List.singleton_append, validPath_append,
        ih]
      rfl

theorem validPath_iff {part : Bytes} (h : (47 : UInt8) ∉ part) :
    validPath part = true ↔ Escaped isPchar escapes part := by
  constructor
  · intro hvalid
    induction part using validPath.induct with
    | case1 => exact .nil
    | case2 high low rest ih =>
      simp only [validPath, if_true, Bool.and_eq_true] at hvalid
      have hrest : (47 : UInt8) ∉ rest := by
        simp only [List.mem_cons, not_or] at h
        exact h.2.2.2
      exact .escape (by simpa [escapes] using hvalid.1) (ih hrest hvalid.2)
    | case3 rest hshort =>
      rcases rest with _ | ⟨x, _ | ⟨y, tail⟩⟩
      · cases hvalid
      · cases hvalid
      · exact absurd rfl (hshort x y tail)
    | case4 b rest hb ih =>
      simp only [List.mem_cons, not_or] at h
      rw [validPath_cons hb] at hvalid
      simp only [Bool.and_eq_true, Bool.or_eq_true, beq_iff_eq] at hvalid
      obtain ⟨rfl | hpchar, hrest⟩ := hvalid
      · exact absurd rfl h.1
      · exact .plain hpchar (ih h.2 hrest)
  · intro hescaped
    clear h
    induction hescaped with
    | nil => rfl
    | plain hb _ ih => rw [validPath_cons (isPchar_plain hb).1, hb, ih, Bool.or_true, Bool.and_true]
    | escape hb _ ih =>
      simp only [escapes, Bool.and_eq_true] at hb
      simp [validPath, hb, ih]

theorem not_mem_of_mem_splitOn {b : UInt8} {value part : Bytes} (h : part ∈ value.splitOn b) :
    b ∉ part := by
  induction value generalizing part with
  | nil =>
    rw [List.splitOn_nil, List.mem_singleton] at h
    simp [h]
  | cons x rest ih =>
    rw [List.splitOn_cons_eq_if_modifyHead] at h
    split_ifs at h with hx
    · obtain rfl | hpart := List.mem_cons.mp h
      · exact List.not_mem_nil
      · exact ih hpart
    · cases hsplit : rest.splitOn b with
      | nil => exact absurd hsplit (List.splitOn_ne_nil b rest)
      | cons first others =>
        rw [hsplit, List.modifyHead_cons, List.mem_cons] at h
        obtain rfl | hpart := h
        · have hfirst : b ∉ first := ih (by simp [hsplit])
          simp only [List.mem_cons, not_or]
          exact ⟨fun hb => hx (by simp [hb]), hfirst⟩
        · exact ih (by simp [hsplit, hpart])

/-! ### The recogniser -/

set_option maxRecDepth 2048 in
theorem Segment.slash {segment : Bytes} (h : Segment segment) : (47 : UInt8) ∉ segment := by
  have hdigit : ∀ b, isUpperHex b = true → b ≠ 47 := by decide
  intro hmem
  refine h.escaped.forall_mem (q := (· ≠ 47)) (fun b hb => (isPchar_plain hb).2) (by decide) ?_ 47
    hmem rfl
  intro high low hescape
  simp only [escapes, Bool.and_eq_true] at hescape
  exact ⟨hdigit high hescape.1.1, hdigit low hescape.1.2⟩

namespace ApplicationId

theorem splitOn_path (id : ApplicationId) :
    ([47].intercalate id.segments).splitOn 47 = id.segments :=
  List.splitOn_intercalate 47 (fun segment hsegment => (id.segments_valid segment hsegment).slash)
    id.segments_nonempty

set_option maxRecDepth 2048 in
/-- The octets of an identifier: ASCII, with no query and no fragment. -/
theorem text_octets (id : ApplicationId) :
    ∀ b ∈ id.text, b.toNat < 128 ∧ b ≠ 63 ∧ b ≠ 35 := by
  have hlabel : ∀ b, isLowercase b = true ∨ isDigit b = true ∨ b = 45 ∨ b = 46 ∨ b = 58 →
      b.toNat < 128 ∧ b ≠ 63 ∧ b ≠ 35 := by
    have hlower : ∀ b, isLowercase b = true → b.toNat < 128 ∧ b ≠ 63 ∧ b ≠ 35 := by decide
    have hdecimal : ∀ b, isDigit b = true → b.toNat < 128 ∧ b ≠ 63 ∧ b ≠ 35 := by decide
    rintro b (hb | hb | rfl | rfl | rfl)
    · exact hlower b hb
    · exact hdecimal b hb
    · decide
    · decide
    · decide
  have hpchar : ∀ b, isPchar b = true → b.toNat < 128 ∧ b ≠ 63 ∧ b ≠ 35 := by decide
  have hdigit : ∀ b, isUpperHex b = true → b.toNat < 128 ∧ b ≠ 63 ∧ b ≠ 35 := by decide
  have hscheme : ∀ b ∈ ascii "https://", b.toNat < 128 ∧ b ≠ 63 ∧ b ≠ 35 := by
    decide
  have hsegments : ∀ b ∈ [47].intercalate id.segments, b.toNat < 128 ∧ b ≠ 63 ∧ b ≠ 35 := by
    refine forall_mem_intercalate (by decide) fun segment hsegment =>
      (id.segments_valid segment hsegment).escaped.forall_mem hpchar (by decide) ?_
    intro high low hescape
    simp only [escapes, Bool.and_eq_true] at hescape
    exact ⟨hdigit high hescape.1.1, hdigit low hescape.1.2⟩
  intro b hb
  simp only [text, origin, path, List.mem_append, List.mem_cons] at hb
  obtain (hb | hb) | rfl | hb := hb
  · exact hscheme b hb
  · exact hlabel b (authorityText_octets id.host b hb)
  · decide
  · exact hsegments b hb

end ApplicationId

theorem recogniseApplicationId_iff {value origin : Bytes} :
    recogniseApplicationId value = .ok origin ↔ value.length ≤ maxApplicationIdOctets ∧
      ∃ id : ApplicationId, value = id.text ∧ origin = id.origin := by
  constructor
  · intro h
    unfold recogniseApplicationId at h
    split_ifs at h with hsize
    obtain ⟨⟨origin', path⟩, hsplit, h⟩ := Calls.except_bind_eq_ok.mp h
    dsimp only at h
    split_ifs at h with hpath
    obtain rfl := Except.ok.inj h
    obtain ⟨-, -, labels, port, hlabels, hport, rfl, rfl⟩ := splitHttps_eq_ok.mp hsplit
    simp only [not_or, ne_eq, not_not, Bool.not_eq_true, Bool.not_eq_true', Bool.not_eq_false,
      List.any_eq_false, Bool.or_eq_true, beq_iff_eq] at hpath
    obtain ⟨hhead, hparts, hvalid⟩ := hpath
    obtain ⟨rest, rfl⟩ := List.head?_eq_some_iff.mp hhead
    have hwhole : [47].intercalate (rest.splitOn 47) = rest := List.intercalate_splitOn 47
    rw [validPath_cons (by decide), ← hwhole, validPath_intercalate] at hvalid
    simp only [beq_self_eq_true, Bool.true_or, Bool.true_and, List.all_eq_true] at hvalid
    have hsegments : ∀ segment ∈ rest.splitOn 47, Segment segment := by
      intro segment hsegment
      obtain ⟨⟨hempty, hdot⟩, hdots⟩ := hparts segment hsegment
      exact ⟨hempty, (validPath_iff (not_mem_of_mem_splitOn hsegment)).mp (hvalid segment hsegment),
        hdot, hdots⟩
    refine ⟨not_lt.mp (not_or.mp hsize).2, ⟨labels, port, rest.splitOn 47, hlabels, hport,
      List.splitOn_ne_nil _ _, hsegments⟩, ?_, rfl⟩
    rw [ApplicationId.text, ApplicationId.path, hwhole]
    rfl
  · rintro ⟨hsize, id, rfl, rfl⟩
    have hoctets := id.text_octets
    have hascii : isAscii id.text = true := by
      rw [isAscii, List.all_eq_true]
      exact fun b hb => decide_eq_true (hoctets b hb).1
    have hsplit : splitHttps id.text = .ok (id.origin, id.path) :=
      splitHttps_eq_ok.mpr ⟨⟨hascii, fun h => (hoctets 63 h).2.1 rfl,
        fun h => (hoctets 35 h).2.2 rfl⟩,
        .inr rfl, id.labels, id.port, id.host, id.port_valid, rfl, rfl⟩
    have hne : id.text ≠ [] := by simp [ApplicationId.text, ApplicationId.path]
    have hparts : ((id.path.drop 1).splitOn 47).any
        (fun part => part == [] || part == [46] || part == [46, 46]) = false := by
      rw [ApplicationId.path, List.drop_one, List.tail_cons, id.splitOn_path, List.any_eq_false]
      intro segment hsegment
      obtain ⟨hempty, -, hdot, hdots⟩ := id.segments_valid segment hsegment
      simp [hempty, hdot, hdots]
    have hvalid : validPath id.path = true := by
      rw [ApplicationId.path, validPath_cons (by decide), validPath_intercalate]
      simp only [beq_self_eq_true, Bool.true_or, Bool.true_and, List.all_eq_true]
      intro segment hsegment
      have hid := id.segments_valid segment hsegment
      exact (validPath_iff hid.slash).mpr hid.escaped
    unfold recogniseApplicationId
    rw [if_neg (by simp [hne, hsize]), hsplit, Calls.ok_bind]
    dsimp only
    rw [if_neg (by rw [hparts, hvalid]; simp [ApplicationId.path])]

/-! ### Escapes -/

theorem escaped_intercalate {plain : UInt8 → Bool} {escape : UInt8 → UInt8 → Bool} {b : UInt8}
    {parts : List Bytes} (hb : plain b = true)
    (hparts : ∀ part ∈ parts, Escaped plain escape part) :
    Escaped plain escape ([b].intercalate parts) := by
  induction parts with
  | nil => exact .nil
  | cons part rest ih =>
    obtain ⟨hpart, hrest⟩ := List.forall_mem_cons.mp hparts
    cases rest with
    | nil => simpa using hpart
    | cons next rest =>
      rw [List.intercalate_cons_cons, List.append_assoc]
      exact hpart.append (.plain hb (ih hrest))

/-- Every escape replaced by the octet it stands for. -/
def percentDecode : Bytes → Bytes := decodeWhere fun _ => true

/-- The escapes of unreserved octets replaced by these. -/
def decodeUnreserved : Bytes → Bytes := decodeWhere isUnreserved

set_option maxRecDepth 4096 in
theorem Segment.percentDecode {segment : Bytes} (h : Segment segment) :
    percentDecode segment ≠ [] ∧ percentDecode segment ≠ [46] ∧
      percentDecode segment ≠ [46, 46] := by
  have hplain : ∀ b, isPchar b = true → b ≠ 37 := fun b hb => (isPchar_plain hb).1
  have hsame : (∀ b ∈ CredentialV2.percentDecode segment, isUnreserved b = true) →
      CredentialV2.percentDecode segment = segment :=
    h.escaped.eq_of_decode hplain fun _ _ => escapes_octet
  refine ⟨h.escaped.decode_ne_nil hplain h.nonempty fun _ _ hescape => ?_, ?_, ?_⟩
  · obtain ⟨octet, hoctet, -⟩ := escapes_octet hescape
    exact ⟨octet, hoctet⟩
  · intro hdot
    exact h.not_dot ((hsame (by rw [hdot]; decide)).symm.trans hdot)
  · intro hdots
    exact h.not_dots ((hsame (by rw [hdots]; decide)).symm.trans hdots)

set_option maxRecDepth 4096 in
/-- No escape of an accepted identifier stands for an unreserved octet. -/
theorem ApplicationId.decodeUnreserved_text (id : ApplicationId) :
    decodeUnreserved id.text = id.text := by
  have hauthority : ∀ b, isLowercase b = true ∨ isDigit b = true ∨ b = 45 ∨ b = 46 ∨ b = 58 →
      (b != 37) = true := by decide
  have hpath : Escaped (· != 37) escapes ([47].intercalate id.segments) := by
    refine escaped_intercalate (by decide) fun segment hsegment =>
      (id.segments_valid segment hsegment).escaped.mono fun b hb => ?_
    exact bne_iff_ne.mpr (isPchar_plain hb).1
  have horigin : Escaped (· != 37) escapes id.origin := by
    refine (escaped_of_plain (by decide)).append (escaped_of_plain fun b hb => ?_)
    exact hauthority b (authorityText_octets id.host b hb)
  have htext : Escaped (· != 37) escapes id.text := horigin.append (.plain (by decide) hpath)
  exact htext.decodeWhere_eq (fun _ => bne_iff_ne.mp) fun _ _ => escapes_octet

/-- The recogniser accepts the grammar, returns the part before the path, and accepts one
spelling of an identifier alone. -/
theorem application_ids_canonical :
    (∀ value origin : Bytes, recogniseApplicationId value = .ok origin ↔
      value.length ≤ maxApplicationIdOctets ∧
        ∃ id : ApplicationId, value = id.text ∧ origin = id.origin) ∧
    (∀ value origin : Bytes, recogniseApplicationId value = .ok origin →
      ∀ segment ∈ (value.drop (origin.length + 1)).splitOn 47, percentDecode segment ≠ [] ∧
        percentDecode segment ≠ [46] ∧ percentDecode segment ≠ [46, 46]) ∧
    ∀ value value' origin origin' : Bytes, recogniseApplicationId value = .ok origin →
      recogniseApplicationId value' = .ok origin' →
      decodeUnreserved value = decodeUnreserved value' → value = value' := by
  refine ⟨fun _ _ => recogniseApplicationId_iff, ?_, ?_⟩
  · intro value origin h segment hsegment
    obtain ⟨-, id, rfl, rfl⟩ := recogniseApplicationId_iff.mp h
    have hpath : id.text.drop (id.origin.length + 1) = [47].intercalate id.segments := by
      rw [ApplicationId.text, List.drop_length_add_append]
      rfl
    rw [hpath, id.splitOn_path] at hsegment
    exact (id.segments_valid segment hsegment).percentDecode
  · intro value value' origin origin' h h' hdecoded
    obtain ⟨-, id, rfl, -⟩ := recogniseApplicationId_iff.mp h
    obtain ⟨-, id', rfl, -⟩ := recogniseApplicationId_iff.mp h'
    rwa [id.decodeUnreserved_text, id'.decodeUnreserved_text] at hdecoded

/-- Two identifiers of one host, one of which escapes its space. -/
theorem application_ids_canonical_sample :
    (∀ segment ∈ ((ascii "https://a.example:8443/b%20c").drop 23).splitOn 47,
      percentDecode segment ≠ [46]) ∧
    decodeUnreserved (ascii "https://a.example:8443/b%20c") ≠
      decodeUnreserved (ascii "https://a.example:8443/b.c") := by
  have hescaped : recogniseApplicationId (ascii "https://a.example:8443/b%20c") =
      .ok (ascii "https://a.example:8443") := by decide +kernel
  have hplain : recogniseApplicationId (ascii "https://a.example:8443/b.c") =
      .ok (ascii "https://a.example:8443") := by decide +kernel
  obtain ⟨-, hsegments, hspellings⟩ := application_ids_canonical
  refine ⟨fun segment hsegment => (hsegments _ _ hescaped segment hsegment).2.1, fun h => ?_⟩
  exact absurd (hspellings _ _ _ _ hescaped hplain h) (by decide)

end CredentialV2
end CbclPairing
