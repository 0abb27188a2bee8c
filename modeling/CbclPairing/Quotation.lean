import Mathlib.Data.List.Basic

/-! Texts with quoted strings. A symbol stands by itself or inside a string between two
quotes, where an escape takes the next symbol with it. -/
namespace Quotation

variable {α : Type} (quote escape : α)

/-- One unit of a quoted string: a symbol that neither ends nor escapes, or any symbol
behind an escape. -/
inductive Inner where
  | plain (a : α) (hquote : a ≠ quote) (hescape : a ≠ escape)
  | escaped (a : α)

/-- One piece of a text. -/
inductive Piece where
  | bare (a : α) (h : a ≠ quote)
  | quoted (content : List (Inner quote escape))

variable {quote escape}

namespace Inner

def text : Inner quote escape → List α
  | plain a _ _ => [a]
  | escaped a => [escape, a]

end Inner

/-- A quoted string behind its first quote, up to its last one. -/
def inside (content : List (Inner quote escape)) : List α := content.flatMap Inner.text

namespace Piece

def text : Piece quote escape → List α
  | bare a _ => [a]
  | quoted content => quote :: (inside content ++ [quote])

/-- The symbols of a piece that stand outside strings. -/
def outside : Piece quote escape → List α
  | bare a _ => [a]
  | quoted _ => []

end Piece

def render (pieces : List (Piece quote escape)) : List α := pieces.flatMap Piece.text

/-- The symbols of a text outside its strings, in order. -/
def outside (pieces : List (Piece quote escape)) : List α := pieces.flatMap Piece.outside

@[simp] theorem inside_nil : inside ([] : List (Inner quote escape)) = [] := rfl

@[simp] theorem render_nil : render ([] : List (Piece quote escape)) = [] := rfl

@[simp] theorem outside_nil : outside ([] : List (Piece quote escape)) = [] := rfl

@[simp] theorem inside_plain (a : α) (hquote : a ≠ quote) (hescape : a ≠ escape)
    (content : List (Inner quote escape)) :
    inside (.plain a hquote hescape :: content) = a :: inside content := rfl

@[simp] theorem inside_escaped (a : α) (content : List (Inner quote escape)) :
    inside (.escaped a :: content) = escape :: a :: inside content := rfl

@[simp] theorem render_bare (a : α) (h : a ≠ quote) (pieces : List (Piece quote escape)) :
    render (.bare a h :: pieces) = a :: render pieces := rfl

@[simp] theorem render_quoted (content : List (Inner quote escape))
    (pieces : List (Piece quote escape)) :
    render (.quoted content :: pieces) = quote :: (inside content ++ quote :: render pieces) := by
  simp [render, Piece.text]

@[simp] theorem outside_bare (a : α) (h : a ≠ quote) (pieces : List (Piece quote escape)) :
    outside (.bare a h :: pieces) = a :: outside pieces := rfl

@[simp] theorem outside_quoted (content : List (Inner quote escape))
    (pieces : List (Piece quote escape)) :
    outside (.quoted content :: pieces) = outside pieces := rfl

/-! ### Reading symbol by symbol -/

/-- A text that begins with a symbol begins with its piece. -/
theorem render_eq_cons {a : α} {rest : List α} {pieces : List (Piece quote escape)} :
    render pieces = a :: rest ↔
      (∃ h tail, pieces = .bare a h :: tail ∧ render tail = rest) ∨
      (a = quote ∧ ∃ content tail, pieces = .quoted content :: tail ∧
        inside content ++ quote :: render tail = rest) := by
  constructor
  · intro h
    cases pieces with
    | nil => simp at h
    | cons piece tail =>
      cases piece with
      | bare b hb =>
        rw [render_bare, List.cons.injEq] at h
        obtain ⟨rfl, hrest⟩ := h
        exact .inl ⟨hb, tail, rfl, hrest⟩
      | quoted content =>
        rw [render_quoted, List.cons.injEq] at h
        exact .inr ⟨h.1.symm, content, tail, rfl, h.2⟩
  · rintro (⟨h, tail, rfl, rfl⟩ | ⟨rfl, content, tail, rfl, rfl⟩)
    · rfl
    · exact render_quoted content tail

/-- Inside a string a symbol ends it, stands for itself, or escapes the next one. -/
theorem inside_eq_cons {a : α} {rest tail : List α} {content : List (Inner quote escape)} :
    inside content ++ quote :: tail = a :: rest ↔
      (a = quote ∧ content = [] ∧ tail = rest) ∨
      (∃ hquote hescape more, content = .plain a hquote hescape :: more ∧
        inside more ++ quote :: tail = rest) ∨
      (a = escape ∧ ∃ b more, content = .escaped b :: more ∧
        b :: (inside more ++ quote :: tail) = rest) := by
  constructor
  · intro h
    cases content with
    | nil =>
      rw [inside_nil, List.nil_append, List.cons.injEq] at h
      exact .inl ⟨h.1.symm, rfl, h.2⟩
    | cons first more =>
      cases first with
      | plain b hquote hescape =>
        rw [inside_plain, List.cons_append, List.cons.injEq] at h
        obtain ⟨rfl, hrest⟩ := h
        exact .inr (.inl ⟨hquote, hescape, more, rfl, hrest⟩)
      | escaped b =>
        rw [inside_escaped, List.cons_append, List.cons.injEq] at h
        exact .inr (.inr ⟨h.1.symm, b, more, rfl, h.2⟩)
  · rintro (⟨rfl, rfl, rfl⟩ | ⟨hquote, hescape, more, rfl, rfl⟩ | ⟨rfl, b, more, rfl, rfl⟩)
    · rfl
    · rfl
    · rfl

/-! ### One reading -/

theorem inside_cancel (hne : quote ≠ escape) {content content' : List (Inner quote escape)}
    {tail tail' : List α}
    (h : inside content ++ quote :: tail = inside content' ++ quote :: tail') :
    content = content' ∧ tail = tail' := by
  induction content generalizing content' with
  | nil =>
    rcases inside_eq_cons.mp h.symm with ⟨-, hnil, htail⟩ | ⟨hquote, -⟩ | ⟨heq, -⟩
    · exact ⟨hnil.symm, htail.symm⟩
    · exact absurd rfl hquote
    · exact absurd heq hne
  | cons first more ih =>
    cases first with
    | plain a hquote hescape =>
      rw [inside_plain, List.cons_append] at h
      rcases inside_eq_cons.mp h.symm with ⟨heq, -⟩ | ⟨_, _, more', rfl, hmore⟩ | ⟨heq, -⟩
      · exact absurd heq hquote
      · obtain ⟨rfl, htail⟩ := ih hmore.symm
        exact ⟨rfl, htail⟩
      · exact absurd heq hescape
    | escaped a =>
      rw [inside_escaped, List.cons_append, List.cons_append] at h
      rcases inside_eq_cons.mp h.symm with ⟨heq, -⟩ | ⟨_, hescape, -⟩ | ⟨-, b, more', rfl, hmore⟩
      · exact absurd heq.symm hne
      · exact absurd rfl hescape
      · rw [List.cons.injEq] at hmore
        obtain ⟨rfl, hmore⟩ := hmore
        obtain ⟨rfl, htail⟩ := ih hmore.symm
        exact ⟨rfl, htail⟩

/-- Where a quote is no escape, a text is cut into pieces in one way. -/
theorem render_injective (hne : quote ≠ escape) :
    Function.Injective (render : List (Piece quote escape) → List α) := by
  intro pieces
  induction pieces with
  | nil =>
    intro pieces' h
    cases pieces' with
    | nil => rfl
    | cons piece tail => cases piece <;> simp at h
  | cons piece tail ih =>
    intro pieces' h
    cases piece with
    | bare a ha =>
      rcases render_eq_cons.mp h.symm with ⟨_, tail', rfl, htail⟩ | ⟨heq, -⟩
      · rw [ih htail.symm]
      · exact absurd heq ha
    | quoted content =>
      rw [render_quoted] at h
      rcases render_eq_cons.mp h.symm with ⟨hquote, -⟩ | ⟨-, content', tail', rfl, htail⟩
      · exact absurd rfl hquote
      · obtain ⟨rfl, hrender⟩ := inside_cancel hne htail.symm
        rw [ih hrender]

end Quotation
