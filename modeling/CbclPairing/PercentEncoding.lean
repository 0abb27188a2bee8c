import Mathlib.Data.List.Basic

/-! Percent escapes: what an escape stands for, decoding some of the escapes of a text, and
texts whose escapes all stand for octets that have to be escaped. -/
namespace PercentEncoding

/-- The value of a hexadecimal digit of either case. -/
def hexValue? (b : UInt8) : Option UInt8 :=
  if 48 ≤ b ∧ b ≤ 57 then some (b - 48)
  else if 65 ≤ b ∧ b ≤ 70 then some (b - 65 + 10)
  else if 97 ≤ b ∧ b ≤ 102 then some (b - 97 + 10)
  else none

/-- The octet that two digits stand for. -/
def octet? (high low : UInt8) : Option UInt8 := do
  let high ← hexValue? high
  let low ← hexValue? low
  some (high <<< 4 ||| low)

/-- Replace the escapes of the octets in `p`. A percent sign that starts no escape stands
for itself. -/
def decodeWhere (p : UInt8 → Bool) : List UInt8 → List UInt8
  | [] => []
  | b :: rest =>
    if b = 37 then
      match rest with
      | high :: low :: tail =>
        match octet? high low with
        | some octet =>
          if p octet then octet :: decodeWhere p tail else 37 :: high :: low :: decodeWhere p tail
        | none => 37 :: decodeWhere p (high :: low :: tail)
      | short => 37 :: short
    else b :: decodeWhere p rest

/-- Octets that stand for themselves, and escapes of two digits. -/
inductive Escaped (plain : UInt8 → Bool) (escape : UInt8 → UInt8 → Bool) : List UInt8 → Prop
  | nil : Escaped plain escape []
  | plain {b : UInt8} {rest : List UInt8} : plain b = true → Escaped plain escape rest →
      Escaped plain escape (b :: rest)
  | escape {high low : UInt8} {rest : List UInt8} : escape high low = true →
      Escaped plain escape rest → Escaped plain escape (37 :: high :: low :: rest)

variable {p plain plain' : UInt8 → Bool} {escape : UInt8 → UInt8 → Bool} {s t : List UInt8}

theorem Escaped.append (hs : Escaped plain escape s) (ht : Escaped plain escape t) :
    Escaped plain escape (s ++ t) := by
  induction hs with
  | nil => exact ht
  | plain hb _ ih => exact .plain hb ih
  | escape hb _ ih => exact .escape hb ih

theorem Escaped.mono (hle : ∀ b, plain b = true → plain' b = true) (h : Escaped plain escape s) :
    Escaped plain' escape s := by
  induction h with
  | nil => exact .nil
  | plain hb _ ih => exact .plain (hle _ hb) ih
  | escape hb _ ih => exact .escape hb ih

theorem escaped_of_plain (h : ∀ b ∈ s, plain b = true) : Escaped plain escape s := by
  induction s with
  | nil => exact .nil
  | cons b rest ih =>
    obtain ⟨hb, hrest⟩ := List.forall_mem_cons.mp h
    exact .plain hb (ih hrest)

/-- An octet of a text is one that stands for itself, a percent sign, or a digit. -/
theorem Escaped.forall_mem {q : UInt8 → Prop} (hplain : ∀ b, plain b = true → q b) (hpercent : q 37)
    (hescape : ∀ high low, escape high low = true → q high ∧ q low) (h : Escaped plain escape s) :
    ∀ b ∈ s, q b := by
  induction h with
  | nil => exact (by intros; contradiction)
  | plain hb _ ih => exact List.forall_mem_cons.mpr ⟨hplain _ hb, ih⟩
  | escape hb _ ih =>
    obtain ⟨hhigh, hlow⟩ := hescape _ _ hb
    exact List.forall_mem_cons.mpr ⟨hpercent, List.forall_mem_cons.mpr
      ⟨hhigh, List.forall_mem_cons.mpr ⟨hlow, ih⟩⟩⟩

/-! ### Decoding -/

theorem decodeWhere_cons {b : UInt8} (h : b ≠ 37) :
    decodeWhere p (b :: s) = b :: decodeWhere p s := by
  conv_lhs => unfold decodeWhere
  exact if_neg h

theorem decodeWhere_escape {high low octet : UInt8} (h : octet? high low = some octet) :
    decodeWhere p (37 :: high :: low :: s) =
      if p octet then octet :: decodeWhere p s else 37 :: high :: low :: decodeWhere p s := by
  rw [decodeWhere, if_pos rfl]
  simp only [h]

variable (hplain : ∀ b, plain b = true → b ≠ 37)

include hplain

/-- Where no escape stands for an octet in `p`, there is nothing to replace. -/
theorem Escaped.decodeWhere_eq
    (hescape : ∀ high low, escape high low = true →
      ∃ octet, octet? high low = some octet ∧ p octet = false)
    (h : Escaped plain escape s) : decodeWhere p s = s := by
  induction h with
  | nil => rfl
  | plain hb _ ih => rw [decodeWhere_cons (hplain _ hb), ih]
  | escape hb _ ih =>
    obtain ⟨octet, hoctet, hp⟩ := hescape _ _ hb
    rw [decodeWhere_escape hoctet, if_neg (by simp [hp]), ih]

/-- A text that decodes to octets none of its escapes stands for has no escapes. -/
theorem Escaped.eq_of_decode {q : UInt8 → Bool}
    (hescape : ∀ high low, escape high low = true →
      ∃ octet, octet? high low = some octet ∧ q octet = false)
    (h : Escaped plain escape s) (hq : ∀ b ∈ decodeWhere (fun _ => true) s, q b = true) :
    decodeWhere (fun _ => true) s = s := by
  induction h with
  | nil => rfl
  | plain hb _ ih =>
    rw [decodeWhere_cons (hplain _ hb)] at hq ⊢
    rw [ih fun b hb => hq b (List.mem_cons_of_mem _ hb)]
  | escape hb _ ih =>
    obtain ⟨octet, hoctet, hp⟩ := hescape _ _ hb
    rw [decodeWhere_escape hoctet, if_pos rfl] at hq
    exact absurd (hq octet List.mem_cons_self) (by simp [hp])

theorem Escaped.decode_ne_nil (hne : s ≠ [])
    (hescape : ∀ high low, escape high low = true → ∃ octet, octet? high low = some octet)
    (h : Escaped plain escape s) : decodeWhere (fun _ => true) s ≠ [] := by
  cases h with
  | nil => exact absurd rfl hne
  | plain hb =>
    rw [decodeWhere_cons (hplain _ hb)]
    exact List.cons_ne_nil _ _
  | escape hb =>
    obtain ⟨octet, hoctet⟩ := hescape _ _ hb
    rw [decodeWhere_escape hoctet, if_pos rfl]
    exact List.cons_ne_nil _ _

end PercentEncoding
