import CbclPairing.Pairing.CbclProtocol
import CbclPairing.Quotation

/-! The scanner that every control passes before it is parsed: it admits the ASCII texts
whose strings are closed and whose parentheses outside strings are balanced, within a
depth. -/
namespace CbclPairing
namespace Pairing
open Codec Codec.Cbor Calls Cbcl Quotation

/-- A text cut at its double quotes, where the backslash escapes. -/
abbrev Pieces := List (Piece (34 : UInt8) 92)

/-- How much deeper than it begins a text ends: the parentheses it opens outside its
strings, less those it closes. -/
def nesting (pieces : Pieces) : ℤ := (outside pieces).count 40 - (outside pieces).count 41

/-- Behind some open parentheses, a text closes them all; on the way it stands neither
below the ground nor too deep, and outside its strings it is printable. A string leaves
the depth as it is, so between pieces is where to look. -/
structure WellNested (maxDepth : ℕ) (depth : ℤ) (pieces : Pieces) : Prop where
  printable : ∀ b ∈ outside pieces, 0x20 ≤ b ∧ b ≤ 0x7e
  balanced : depth + nesting pieces = 0
  bounded : ∀ before, before <+: pieces →
    0 ≤ depth + nesting before ∧ depth + nesting before ≤ maxDepth

@[simp] theorem nesting_nil : nesting [] = 0 := rfl

@[simp] theorem nesting_quoted (content : List (Inner (34 : UInt8) 92)) (pieces : Pieces) :
    nesting (.quoted content :: pieces) = nesting pieces := rfl

/-- What one octet outside strings adds to the depth. -/
def opens (b : UInt8) : ℤ := if b = 40 then 1 else if b = 41 then -1 else 0

@[simp] theorem nesting_bare (b : UInt8) (h : b ≠ 34) (pieces : Pieces) :
    nesting (.bare b h :: pieces) = opens b + nesting pieces := by
  simp only [nesting, outside_bare, List.count_cons, opens, beq_iff_eq]
  by_cases hopen : b = 40
  · subst hopen
    simp
    omega
  · by_cases hclose : b = 41
    · subst hclose
      simp
      omega
    · simp [hopen, hclose]

theorem wellNested_nil {maxDepth : ℕ} {depth : ℤ} : WellNested maxDepth depth [] ↔ depth = 0 := by
  constructor
  · intro h
    simpa using h.balanced
  · rintro rfl
    refine ⟨by simp, rfl, fun before hbefore => ?_⟩
    rw [List.prefix_nil.mp hbefore]
    simp

theorem wellNested_quoted {maxDepth : ℕ} {depth : ℤ} {content : List (Inner (34 : UInt8) 92)}
    {pieces : Pieces} (hlow : 0 ≤ depth) (hhigh : depth ≤ maxDepth) :
    WellNested maxDepth depth (.quoted content :: pieces) ↔ WellNested maxDepth depth pieces := by
  constructor
  · intro h
    refine ⟨h.printable, h.balanced, fun before hbefore => ?_⟩
    exact h.bounded (.quoted content :: before) (List.prefix_cons_inj _ |>.mpr hbefore)
  · intro h
    refine ⟨h.printable, h.balanced, fun before hbefore => ?_⟩
    rcases List.prefix_cons_iff.mp hbefore with rfl | ⟨rest, rfl, hrest⟩
    · rw [nesting_nil]
      omega
    · exact h.bounded rest hrest

theorem wellNested_bare {maxDepth : ℕ} {depth : ℤ} {b : UInt8} {h : b ≠ 34} {pieces : Pieces}
    (hlow : 0 ≤ depth) (hhigh : depth ≤ maxDepth) :
    WellNested maxDepth depth (.bare b h :: pieces) ↔
      (0x20 ≤ b ∧ b ≤ 0x7e) ∧ WellNested maxDepth (depth + opens b) pieces := by
  constructor
  · intro hnested
    refine ⟨hnested.printable b (by simp), ⟨fun b' hb' => ?_, ?_, fun before hbefore => ?_⟩⟩
    · exact hnested.printable b' (by simp [hb'])
    · have hbalanced := hnested.balanced
      rw [nesting_bare] at hbalanced
      omega
    · have hbounded := hnested.bounded (.bare b h :: before) (List.prefix_cons_inj _ |>.mpr hbefore)
      rw [nesting_bare] at hbounded
      omega
  · rintro ⟨hprintable, hnested⟩
    refine ⟨fun b' hb' => ?_, ?_, fun before hbefore => ?_⟩
    · rw [outside_bare] at hb'
      rcases List.mem_cons.mp hb' with rfl | hb'
      · exact hprintable
      · exact hnested.printable b' hb'
    · have hbalanced := hnested.balanced
      rw [nesting_bare]
      omega
    · rcases List.prefix_cons_iff.mp hbefore with rfl | ⟨rest, rfl, hrest⟩
      · rw [nesting_nil]
        omega
      · have hbounded := hnested.bounded rest hrest
        rw [nesting_bare]
        omega

/-! ### The scan -/

/-- What the scanner makes of the rest of a text, from a depth within the limit: outside
strings, inside one, and behind a backslash inside one. -/
structure Scanned (maxDepth : ℕ) (input : Bytes) : Prop where
  outside : ∀ depth ≤ maxDepth,
    input.foldlM (scanOctet maxDepth) (depth, false, false) = some (0, false, false) ↔
      ∃ pieces : Pieces, render pieces = input ∧ WellNested maxDepth depth pieces
  inside : ∀ depth ≤ maxDepth,
    input.foldlM (scanOctet maxDepth) (depth, true, false) = some (0, false, false) ↔
      ∃ (content : List (Inner (34 : UInt8) 92)) (pieces : Pieces),
        inside content ++ 34 :: render pieces = input ∧ WellNested maxDepth depth pieces
  escaped : ∀ depth ≤ maxDepth,
    input.foldlM (scanOctet maxDepth) (depth, true, true) = some (0, false, false) ↔
      ∃ (b : UInt8) (content : List (Inner (34 : UInt8) 92)) (pieces : Pieces),
        b :: (Quotation.inside content ++ 34 :: render pieces) = input ∧
          WellNested maxDepth depth pieces

theorem scanned_nil (maxDepth : ℕ) : Scanned maxDepth [] where
  outside depth _ := by
    constructor
    · intro h
      have hdepth : depth = 0 := by simpa using h
      exact ⟨[], rfl, wellNested_nil.mpr (by simpa using hdepth)⟩
    · rintro ⟨pieces, hrender, hnested⟩
      cases pieces with
      | nil =>
        have hdepth := wellNested_nil.mp hnested
        simp only [Nat.cast_eq_zero] at hdepth
        rw [hdepth]
        rfl
      | cons piece tail => cases piece <;> simp at hrender
  inside depth _ := by simp
  escaped depth _ := by simp

/-- Outside strings a quote begins one, a parenthesis changes the depth, and any other
octet has to be printable. -/
theorem scan_outside {maxDepth depth : ℕ} {b : UInt8} {rest : Bytes} (h : Scanned maxDepth rest)
    (hdepth : depth ≤ maxDepth) :
    (b :: rest).foldlM (scanOctet maxDepth) (depth, false, false) = some (0, false, false) ↔
      ∃ pieces : Pieces, render pieces = b :: rest ∧ WellNested maxDepth depth pieces := by
  have hlow : (0 : ℤ) ≤ depth := by omega
  have hhigh : (depth : ℤ) ≤ maxDepth := by omega
  rw [List.foldlM_cons]
  by_cases hquote : b = 34
  · subst hquote
    have hscan : scanOctet maxDepth (depth, false, false) 34 = some (depth, true, false) := rfl
    rw [hscan, Option.bind_eq_bind, Option.bind_some, h.inside depth hdepth]
    constructor
    · rintro ⟨content, pieces, rfl, hnested⟩
      exact ⟨.quoted content :: pieces, render_quoted ..,
        (wellNested_quoted hlow hhigh).mpr hnested⟩
    · rintro ⟨pieces, hrender, hnested⟩
      rcases render_eq_cons.mp hrender with ⟨hne, -⟩ | ⟨-, content, tail, rfl, htail⟩
      · exact absurd rfl hne
      · exact ⟨content, tail, htail, (wellNested_quoted hlow hhigh).mp hnested⟩
  -- Whatever else the octet is, it stands by itself.
  · have hbare : (∃ pieces : Pieces, render pieces = b :: rest ∧
        WellNested maxDepth depth pieces) ↔
        (0x20 ≤ b ∧ b ≤ 0x7e) ∧
          ∃ pieces, render pieces = rest ∧ WellNested maxDepth (depth + opens b) pieces := by
      constructor
      · rintro ⟨pieces, hrender, hnested⟩
        rcases render_eq_cons.mp hrender with ⟨hne, tail, rfl, htail⟩ | ⟨heq, -⟩
        · obtain ⟨hprintable, hnested⟩ := (wellNested_bare hlow hhigh).mp hnested
          exact ⟨hprintable, tail, htail, hnested⟩
        · exact absurd heq hquote
      · rintro ⟨hprintable, tail, rfl, hnested⟩
        exact ⟨.bare b hquote :: tail, rfl, (wellNested_bare hlow hhigh).mpr ⟨hprintable, hnested⟩⟩
    rw [hbare]
    have hopening : b = 40 → ((0x20 ≤ b ∧ b ≤ 0x7e) ∧ opens b = 1) := by
      rintro rfl
      decide
    have hclosing : b = 41 → ((0x20 ≤ b ∧ b ≤ 0x7e) ∧ opens b = -1) := by
      rintro rfl
      decide
    simp only [scanOctet, hquote, if_false, Option.bind_eq_bind]
    split_ifs with hopen hdeep hclose hground hprintable
    · obtain ⟨-, hopens⟩ := hopening hopen
      constructor
      · intro hnone
        cases hnone
      · rintro ⟨-, pieces, -, hnested⟩
        obtain ⟨-, hbound⟩ := hnested.bounded [] List.nil_prefix
        rw [hopens, nesting_nil] at hbound
        omega
    · obtain ⟨hprintable, hopens⟩ := hopening hopen
      rw [Option.bind_some, h.outside (depth + 1) (by omega), hopens]
      push_cast
      exact (and_iff_right hprintable).symm
    · obtain ⟨-, hopens⟩ := hclosing hclose
      constructor
      · intro hnone
        cases hnone
      · rintro ⟨-, pieces, -, hnested⟩
        obtain ⟨hbound, -⟩ := hnested.bounded [] List.nil_prefix
        rw [hopens, nesting_nil] at hbound
        omega
    · obtain ⟨hprintable, hopens⟩ := hclosing hclose
      have hbelow : ((depth - 1 : ℕ) : ℤ) = depth + -1 := by omega
      rw [Option.bind_some, h.outside (depth - 1) (by omega), hopens, hbelow]
      exact (and_iff_right hprintable).symm
    · have hopens : opens b = 0 := by simp [opens, hopen, hclose]
      rw [Option.bind_some, h.outside depth hdepth, hopens, add_zero]
      exact (and_iff_right hprintable).symm
    · constructor
      · intro hnone
        cases hnone
      · intro hreading
        exact absurd hreading.1 hprintable

/-- Inside a string a quote ends it, a backslash escapes, and anything else is passed. -/
theorem scan_inside {maxDepth depth : ℕ} {b : UInt8} {rest : Bytes} (h : Scanned maxDepth rest)
    (hdepth : depth ≤ maxDepth) :
    (b :: rest).foldlM (scanOctet maxDepth) (depth, true, false) = some (0, false, false) ↔
      ∃ (content : List (Inner (34 : UInt8) 92)) (pieces : Pieces),
        inside content ++ 34 :: render pieces = b :: rest ∧ WellNested maxDepth depth pieces := by
  rw [List.foldlM_cons]
  simp only [scanOctet, Option.bind_eq_bind]
  split_ifs with hescape hquote
  · rw [Option.bind_some, h.escaped depth hdepth]
    constructor
    · rintro ⟨a, content, pieces, rfl, hnested⟩
      exact ⟨.escaped a :: content, pieces, by rw [hescape]; rfl, hnested⟩
    · rintro ⟨content, pieces, hrender, hnested⟩
      rcases inside_eq_cons.mp hrender with ⟨heq, -⟩ | ⟨-, hne, -⟩ | ⟨-, a, more, -, hmore⟩
      · rw [hescape] at heq
        exact absurd heq (by decide)
      · exact absurd hescape hne
      · exact ⟨a, more, pieces, hmore, hnested⟩
  · rw [Option.bind_some, h.outside depth hdepth]
    constructor
    · rintro ⟨pieces, rfl, hnested⟩
      exact ⟨[], pieces, by rw [hquote]; rfl, hnested⟩
    · rintro ⟨content, pieces, hrender, hnested⟩
      rcases inside_eq_cons.mp hrender with ⟨-, -, htail⟩ | ⟨hne, -⟩ | ⟨heq, -⟩
      · exact ⟨pieces, htail, hnested⟩
      · exact absurd hquote hne
      · exact absurd heq hescape
  · rw [Option.bind_some, h.inside depth hdepth]
    constructor
    · rintro ⟨content, pieces, rfl, hnested⟩
      exact ⟨.plain b hquote hescape :: content, pieces, rfl, hnested⟩
    · rintro ⟨content, pieces, hrender, hnested⟩
      rcases inside_eq_cons.mp hrender with ⟨heq, -⟩ | ⟨-, -, more, -, hmore⟩ | ⟨heq, -⟩
      · exact absurd heq hquote
      · exact ⟨more, pieces, hmore, hnested⟩
      · exact absurd heq hescape

/-- Behind a backslash any octet is passed. -/
theorem scan_escaped {maxDepth depth : ℕ} {b : UInt8} {rest : Bytes} (h : Scanned maxDepth rest)
    (hdepth : depth ≤ maxDepth) :
    (b :: rest).foldlM (scanOctet maxDepth) (depth, true, true) = some (0, false, false) ↔
      ∃ (a : UInt8) (content : List (Inner (34 : UInt8) 92)) (pieces : Pieces),
        a :: (inside content ++ 34 :: render pieces) = b :: rest ∧
          WellNested maxDepth depth pieces := by
  have hscan : scanOctet maxDepth (depth, true, true) b = some (depth, true, false) := rfl
  rw [List.foldlM_cons, hscan, Option.bind_eq_bind, Option.bind_some, h.inside depth hdepth]
  constructor
  · rintro ⟨content, pieces, rfl, hnested⟩
    exact ⟨b, content, pieces, rfl, hnested⟩
  · rintro ⟨a, content, pieces, hrender, hnested⟩
    rw [List.cons.injEq] at hrender
    exact ⟨content, pieces, hrender.2, hnested⟩

theorem scanned (maxDepth : ℕ) (input : Bytes) : Scanned maxDepth input := by
  induction input with
  | nil => exact scanned_nil maxDepth
  | cons b rest ih =>
    exact ⟨fun _ => scan_outside ih, fun _ => scan_inside ih, fun _ => scan_escaped ih⟩

theorem boundedAsciiSexpr_eq_true {input : Bytes} {maxDepth : ℕ} :
    boundedAsciiSexpr input maxDepth = true ↔
      isAscii input = true ∧
        input.foldlM (scanOctet maxDepth) (0, false, false) = some (0, false, false) := by
  rw [boundedAsciiSexpr, Bool.and_eq_true]
  apply and_congr_right
  intro _
  cases hscan : input.foldlM (scanOctet maxDepth) (0, false, false) with
  | none => simp
  | some final =>
    obtain ⟨depth, inString, escaped⟩ := final
    simp [Bool.and_eq_true, and_assoc]

theorem boundedAsciiSexpr_iff (input : Bytes) (maxDepth : ℕ) :
    boundedAsciiSexpr input maxDepth = true ↔
      isAscii input = true ∧
        ∃ pieces : Pieces, render pieces = input ∧ WellNested maxDepth 0 pieces := by
  have hscanned := (scanned maxDepth input).outside 0 (Nat.zero_le _)
  rw [Nat.cast_zero] at hscanned
  rw [boundedAsciiSexpr_eq_true, hscanned]

/-- The scanner accepts the ASCII texts that can be cut into strings and printable octets
outside them so that the parentheses outside balance within the limit; and a text is cut
in one way, so it is its own parentheses that balance. -/
theorem boundedAsciiSexpr_exact (input : Bytes) (maxDepth : ℕ) :
    (boundedAsciiSexpr input maxDepth = true ↔
      isAscii input = true ∧
        ∃ pieces : Pieces, render pieces = input ∧ WellNested maxDepth 0 pieces) ∧
      ∀ pieces pieces' : Pieces, render pieces = input → render pieces' = input →
        pieces = pieces' := by
  constructor
  · exact boundedAsciiSexpr_iff input maxDepth
  · intro pieces pieces' h h'
    exact render_injective (by decide) (h.trans h'.symm)

/-- The parser sees no control that nests deeper than the limit. -/
theorem recogniseSignedControl_wellNested [Primitives] [Cbcl] {control : Bytes}
    {requireRoleWrapper : Bool} {verified : VerifiedControl}
    (h : recogniseSignedControl control requireRoleWrapper = .ok verified) :
    ∃ pieces : Pieces, render pieces = control ∧ WellNested maxControlDepth 0 pieces := by
  unfold recogniseSignedControl at h
  simp only [guard_eq_ok] at h
  obtain ⟨-, -, hscan, -⟩ := h
  rw [not_not] at hscan
  exact ((boundedAsciiSexpr_iff control maxControlDepth).mp hscan).2

end Pairing
end CbclPairing
