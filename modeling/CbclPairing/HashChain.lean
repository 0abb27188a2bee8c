import Mathlib.Data.List.Basic

/-! Lists in which every element names the digest of the one before it. -/
namespace HashChain

variable {α δ : Type} {root : α → Prop} {names : α → δ → Prop} {digest : α → δ}

/-- A chain, newest element first, down to the root it started from. -/
inductive Chain (root : α → Prop) (names : α → δ → Prop) (digest : α → δ) : List α → Prop
  | root {a : α} : root a → Chain root names digest [a]
  | link {a b : α} {l : List α} : ¬ root b → names b (digest a) →
      Chain root names digest (a :: l) → Chain root names digest (b :: a :: l)

/-- The newest digest fixes the whole chain, as far as the digests of the two
chains do not collide. -/
theorem Chain.eq_of_digest_eq {l l' : List α} (h : Chain root names digest l)
    (h' : Chain root names digest l')
    (hnames : ∀ a d d', names a d → names a d' → d = d')
    (hdigest : ∀ a ∈ l, ∀ b ∈ l', digest a = digest b → a = b)
    (hnewest : l.head?.map digest = l'.head?.map digest) : l = l' := by
  induction h generalizing l' with
  | @root a ha =>
    cases h' with
    | @root b _ =>
      have hab : a = b := hdigest a (by simp) b (by simp) (by simpa using hnewest)
      rw [hab]
    | @link c b l hb =>
      have hab : a = b := hdigest a (by simp) b (by simp) (by simpa using hnewest)
      exact absurd (hab ▸ ha) hb
  | @link a b l hb hba _ ih =>
    cases h' with
    | @root b' hb' =>
      have hbb : b = b' := hdigest b (by simp) b' (by simp) (by simpa using hnewest)
      exact absurd (hbb ▸ hb') hb
    | @link a' b' l'' hb' hba' hl =>
      have hbb : b = b' := hdigest b (by simp) b' (by simp) (by simpa using hnewest)
      subst hbb
      -- one element names one digest, so the predecessors collide and are equal
      have hprev : digest a = digest a' := hnames b _ _ hba hba'
      have hrest : a :: l = a' :: l'' := by
        refine ih hl (fun x hx y hy => hdigest x (.tail _ hx) y (.tail _ hy)) ?_
        simpa using hprev
      rw [hrest]

end HashChain
