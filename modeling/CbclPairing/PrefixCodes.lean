import Mathlib.Data.List.Basic

/-! Prefix-free codes: after a code word the rest of a text is determined, so that code
words can be set side by side without a separator. -/
namespace PrefixCodes

variable {α β γ : Type*}

/-- No two texts that begin with code words agree unless the words do. -/
def PrefixFree (code : α → List γ) : Prop :=
  ∀ ⦃a b : α⦄ ⦃rest rest' : List γ⦄, code a ++ rest = code b ++ rest' → a = b ∧ rest = rest'

theorem PrefixFree.injective {code : α → List γ} (h : PrefixFree code) :
    Function.Injective code := by
  intro a b hab
  exact (h (congrArg (· ++ []) hab)).1

/-- A code for lengths turns into one for values: the length goes before the value. -/
theorem PrefixFree.lengthValue {length : ℕ → List γ} (h : PrefixFree length) :
    PrefixFree fun value : List γ => length value.length ++ value := by
  intro a b rest rest' hab
  rw [List.append_assoc, List.append_assoc] at hab
  obtain ⟨hlength, hvalue⟩ := h hab
  exact List.append_inj hvalue hlength

/-- What stands between two code words may depend on the first. -/
theorem PrefixFree.padded {first : α → List γ} {second : β → List γ} (h : PrefixFree first)
    (h' : PrefixFree second) (padding : α → List γ) :
    PrefixFree fun pair : α × β => first pair.1 ++ padding pair.1 ++ second pair.2 := by
  rintro ⟨a, b⟩ ⟨a', b'⟩ rest rest' hab
  simp only [List.append_assoc] at hab
  obtain ⟨rfl, htail⟩ := h hab
  obtain ⟨rfl, hrest⟩ := h' (List.append_cancel_left htail)
  exact ⟨rfl, hrest⟩

/-- Two code words side by side. -/
theorem PrefixFree.pair {first : α → List γ} {second : β → List γ} (h : PrefixFree first)
    (h' : PrefixFree second) : PrefixFree fun pair : α × β => first pair.1 ++ second pair.2 := by
  have hpadded := h.padded h' fun _ => []
  simpa only [List.append_nil] using hpadded

end PrefixCodes
