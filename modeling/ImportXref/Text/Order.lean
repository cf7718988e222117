import ImportXref.Text.Basic

/-!
# The order of texts — by code points

`precedes s t` compares the first characters in which the two texts differ.  It is a strict total
order: `precedes_irrefl`, `precedes_trans`, `precedes_total`.
-/

namespace ImportXref

/-- Comes first in the order by code points, position by position; a shorter text comes before
its continuations. -/
def Text.precedes : Text → Text → Bool
  | _, [] => false
  | [], _ :: _ => true
  | x :: s, y :: t => x < y || (x == y && precedes s t)

namespace Text

theorem precedes_irrefl (s : Text) : precedes s s = false := by
  induction s with
  | nil => rfl
  | cons x s ih => simp [precedes, ih]

/-- The order of texts is transitive. -/
theorem precedes_trans {s t u : Text} (h₁ : precedes s t) (h₂ : precedes t u) : precedes s u := by
  induction s generalizing t u with
  | nil => cases t <;> cases u <;> simp_all [precedes]
  | cons x s ih =>
    cases t with
    | nil => simp [precedes] at h₁
    | cons y t =>
      cases u with
      | nil => simp [precedes] at h₂
      | cons z u =>
        simp only [precedes, Bool.or_eq_true, decide_eq_true_eq, Bool.and_eq_true,
          beq_iff_eq] at h₁ h₂ ⊢
        rcases h₁ with h₁ | ⟨rfl, h₁⟩
        · rcases h₂ with h₂ | ⟨rfl, h₂⟩
          · exact Or.inl (Char.lt_trans h₁ h₂)
          · exact Or.inl h₁
        · rcases h₂ with h₂ | ⟨rfl, h₂⟩
          · exact Or.inl h₂
          · exact Or.inr ⟨rfl, ih h₁ h₂⟩

/-- Of two different texts, one comes before the other. -/
theorem precedes_total {s t : Text} (h : precedes s t = false) (hne : s ≠ t) : precedes t s := by
  induction s generalizing t with
  | nil => cases t <;> simp_all [precedes]
  | cons x s ih =>
    cases t with
    | nil => simp [precedes]
    | cons y t =>
      simp only [precedes, Bool.or_eq_false_iff, decide_eq_false_iff_not, Bool.and_eq_false_imp,
        beq_iff_eq, Char.not_lt] at h
      simp only [precedes, Bool.or_eq_true, decide_eq_true_eq, Bool.and_eq_true, beq_iff_eq]
      by_cases hxy : x = y
      · subst hxy
        exact Or.inr ⟨rfl, ih (h.2 rfl) (by simpa using hne)⟩
      · refine Or.inl ?_
        rcases Char.le_total x y with hle | hle
        · exact absurd (Char.le_antisymm hle h.1) hxy
        · exact Char.not_le.mp fun hc => hxy (Char.le_antisymm hc hle)

end Text

end ImportXref
