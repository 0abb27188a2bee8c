import Mathlib.Computability.Language

/-! Languages of words between separators, and what cutting a word at the separators
says about them. -/
namespace Separated
open Computability

variable {α : Type}

/-- The words of one symbol out of a class. -/
def symbol (p : α → Bool) : Language α := {w | ∃ a, p a = true ∧ w = [a]}

theorem mem_symbol {p : α → Bool} {w : List α} :
    w ∈ symbol p ↔ ∃ a, p a = true ∧ w = [a] := Iff.rfl

theorem symbol_or (p q : α → Bool) :
    symbol (fun a => p a || q a) = symbol p + symbol q := by
  ext w
  rw [Language.mem_add, mem_symbol, mem_symbol, mem_symbol]
  constructor
  · rintro ⟨a, ha, rfl⟩
    rcases Bool.or_eq_true_iff.mp ha with hp | hq
    · exact .inl ⟨a, hp, rfl⟩
    · exact .inr ⟨a, hq, rfl⟩
  · rintro (⟨a, hp, rfl⟩ | ⟨a, hq, rfl⟩)
    · exact ⟨a, by rw [hp, Bool.true_or], rfl⟩
    · exact ⟨a, by rw [hq, Bool.or_true], rfl⟩

theorem mem_kstar_symbol {p : α → Bool} {w : List α} : w ∈ (symbol p)∗ ↔ w.all p = true := by
  rw [List.all_eq_true, Language.mem_kstar]
  constructor
  · rintro ⟨words, rfl, hwords⟩ a ha
    obtain ⟨word, hword, ha⟩ := List.mem_flatten.mp ha
    obtain ⟨b, hb, rfl⟩ := hwords word hword
    rw [List.mem_singleton.mp ha]
    exact hb
  · intro h
    refine ⟨w.map fun a => [a], ?_, ?_⟩
    · rw [← List.flatMap_def, List.flatMap_singleton']
    · intro word hword
      obtain ⟨a, ha, rfl⟩ := List.mem_map.mp hword
      exact ⟨a, h a ha, rfl⟩

theorem mem_symbol_mul {p : α → Bool} {l : Language α} {w : List α} :
    w ∈ symbol p * l ↔ ∃ a rest, p a = true ∧ rest ∈ l ∧ w = a :: rest := by
  rw [Language.mem_mul]
  constructor
  · rintro ⟨_, ⟨a, ha, rfl⟩, rest, hrest, rfl⟩
    exact ⟨a, rest, ha, hrest, rfl⟩
  · rintro ⟨a, rest, ha, hrest, rfl⟩
    exact ⟨[a], ⟨a, ha, rfl⟩, rest, hrest, rfl⟩

theorem mem_mul_symbol {p : α → Bool} {l : Language α} {w : List α} :
    w ∈ l * symbol p ↔ ∃ before a, before ∈ l ∧ p a = true ∧ w = before ++ [a] := by
  rw [Language.mem_mul]
  constructor
  · rintro ⟨before, hbefore, _, ⟨a, ha, rfl⟩, rfl⟩
    exact ⟨before, a, hbefore, ha, rfl⟩
  · rintro ⟨before, a, hbefore, ha, rfl⟩
    exact ⟨before, hbefore, [a], ⟨a, ha, rfl⟩, rfl⟩

/-! ### The symbols of a language -/

/-- Every symbol of every word is of this kind. -/
def Within (p : α → Prop) (l : Language α) : Prop := ∀ w ∈ l, ∀ a ∈ w, p a

namespace Within

variable {p q : α → Prop} {l m : Language α}

theorem mono (h : Within p l) (hpq : ∀ a, p a → q a) : Within q l :=
  fun w hw a ha => hpq a (h w hw a ha)

theorem symbol {class' : α → Bool} (h : ∀ a, class' a = true → p a) :
    Within p (Separated.symbol class') := by
  rintro _ ⟨b, hb, rfl⟩ a ha
  rw [List.mem_singleton.mp ha]
  exact h b hb

theorem literal {word : List α} (h : ∀ a ∈ word, p a) : Within p ({word} : Language α) := by
  intro w hw a ha
  rw [Set.mem_singleton_iff.mp hw] at ha
  exact h a ha

theorem add (hl : Within p l) (hm : Within p m) : Within p (l + m) := by
  intro w hw
  rcases (Language.mem_add l m w).mp hw with hw | hw
  · exact hl w hw
  · exact hm w hw

theorem mul (hl : Within p l) (hm : Within p m) : Within p (l * m) := by
  intro w hw a ha
  obtain ⟨before, hbefore, after, hafter, rfl⟩ := Language.mem_mul.mp hw
  rcases List.mem_append.mp ha with ha | ha
  · exact hl before hbefore a ha
  · exact hm after hafter a ha

theorem kstar (hl : Within p l) : Within p l∗ := by
  intro w hw a ha
  obtain ⟨words, rfl, hwords⟩ := Language.mem_kstar.mp hw
  obtain ⟨word, hword, ha⟩ := List.mem_flatten.mp ha
  exact hl word (hwords word hword) a ha

end Within

/-! ### Words between separators -/

theorem intercalate_cons (separator : α) (first : List α) (others : List (List α)) :
    [separator].intercalate (first :: others) =
      first ++ (others.map (separator :: ·)).flatten := by
  induction others generalizing first with
  | nil => simp [List.intercalate]
  | cons second others ih =>
    rw [List.map_cons, List.flatten_cons, List.cons_append, ← ih second]
    simp [List.intercalate]

/-- What follows a first word: more words, each behind a separator. -/
theorem mem_kstar_separated {separator : α} {l : Language α} {w : List α} :
    w ∈ (({[separator]} : Language α) * l)∗ ↔
      ∃ others : List (List α), (∀ word ∈ others, word ∈ l) ∧
        w = (others.map (separator :: ·)).flatten := by
  rw [Language.mem_kstar]
  constructor
  · rintro ⟨parts, rfl, hparts⟩
    induction parts with
    | nil => exact ⟨[], by simp, rfl⟩
    | cons part parts ih =>
      obtain ⟨others, hothers, hflatten⟩ := ih fun y hy => hparts y (List.mem_cons_of_mem _ hy)
      obtain ⟨_, rfl, word, hword, hpart⟩ :=
        Language.mem_mul.mp (hparts part List.mem_cons_self)
      refine ⟨word :: others, ?_, ?_⟩
      · intro other hother
        rcases List.mem_cons.mp hother with rfl | hother
        · exact hword
        · exact hothers other hother
      · rw [List.flatten_cons, hflatten, ← hpart]
        rfl
  · rintro ⟨others, hothers, rfl⟩
    refine ⟨others.map (separator :: ·), rfl, fun part hpart => ?_⟩
    obtain ⟨word, hword, rfl⟩ := List.mem_map.mp hpart
    exact Language.mem_mul.mpr ⟨[separator], rfl, word, hothers word hword, rfl⟩

variable [DecidableEq α]

/-- At least two words between separators that they do not contain: cutting the whole at
the separators gives the words back. -/
theorem mem_separated {separator : α} {l : Language α} {w : List α}
    (h : Within (· ≠ separator) l) :
    w ∈ l * (({[separator]} * l) * ({[separator]} * l)∗) ↔
      2 ≤ (w.splitOn separator).length ∧ ∀ word ∈ w.splitOn separator, word ∈ l := by
  rw [Language.mem_mul]
  constructor
  · rintro ⟨first, hfirst, rest, hrest, rfl⟩
    obtain ⟨_, ⟨_, rfl, second, hsecond, rfl⟩, more, hmore, rfl⟩ := Language.mem_mul.mp hrest
    obtain ⟨others, hothers, rfl⟩ := mem_kstar_separated.mp hmore
    have hwords : ∀ word ∈ first :: second :: others, word ∈ l := by
      simpa using ⟨hfirst, hsecond, hothers⟩
    have hcut : (first ++ ([separator] ++ second ++ (others.map (separator :: ·)).flatten)).splitOn
        separator = first :: second :: others := by
      have hjoined := intercalate_cons separator first (second :: others)
      rw [List.map_cons, List.flatten_cons] at hjoined
      have happly := List.splitOn_intercalate separator
        (fun word hword hmem => h word (hwords word hword) separator hmem rfl)
        (List.cons_ne_nil first (second :: others))
      rw [hjoined] at happly
      exact happly
    refine ⟨?_, ?_⟩
    · simp only [hcut, List.length_cons]
      omega
    · intro word hword
      rw [hcut] at hword
      exact hwords word hword
  · rintro ⟨hlength, hwords⟩
    have hjoin : [separator].intercalate (w.splitOn separator) = w :=
      List.intercalate_splitOn separator
    cases hsplit : w.splitOn separator with
    | nil => exact absurd hsplit (List.splitOn_ne_nil separator w)
    | cons first others =>
      cases others with
      | nil =>
        rw [hsplit] at hlength
        simp at hlength
      | cons second others =>
        rw [hsplit] at hwords hjoin
        rw [intercalate_cons, List.map_cons, List.flatten_cons] at hjoin
        refine ⟨first, hwords first (by simp), _, ?_, hjoin⟩
        apply Language.mem_mul.mpr
        refine ⟨separator :: second, ?_, _, ?_, rfl⟩
        · exact Language.mem_mul.mpr ⟨[separator], rfl, second, hwords second (by simp), rfl⟩
        · exact mem_kstar_separated.mpr
            ⟨others, fun word hword => hwords word (by simp [hword]), rfl⟩

end Separated
