import CallNotation.Text.Styling

/-!
# What printing changes

Where no terminal shows it, a text is printed without its style codes. A text without style codes is
left as it is, and no other text is: leaving out a style code makes a text shorter.

Results:
* **`Text.unstyled_eq_self_iff`**, `Text.ofList_unstyled_eq_iff`: when a text is left as it is.
-/

namespace CallNotation

namespace Text

/-- There is a style code in the text. -/
def IsStyled (t : Text) : Prop :=
  ∃ front rest n, t = front ++ '\x1b' :: rest ∧ styleCodeLength? rest = some n

theorem IsStyled.cons {t : Text} (h : t.IsStyled) (c : Char) : IsStyled (c :: t) := by
  obtain ⟨front, rest, n, rfl, hn⟩ := h
  exact ⟨c :: front, rest, n, rfl, hn⟩

/-- A style code is the first thing in the text or lies behind its first character. -/
theorem IsStyled.of_cons {c : Char} {t : Text} (h : IsStyled (c :: t)) :
    (c = '\x1b' ∧ styleCodeLength? t ≠ none) ∨ t.IsStyled := by
  obtain ⟨front, rest, n, heq, hn⟩ := h
  cases front with
  | nil =>
    obtain ⟨rfl, rfl⟩ := List.cons.inj heq
    exact .inl ⟨rfl, by simp [hn]⟩
  | cons d front =>
    obtain ⟨-, rfl⟩ := List.cons.inj heq
    exact .inr ⟨front, rest, n, rfl, hn⟩

theorem unstyledFrom_length_le (skip : Nat) (t : Text) :
    (unstyledFrom skip t).length ≤ t.length := by
  fun_induction unstyledFrom skip t with
  | case1 skip => exact Nat.le_refl _
  | case2 skip c t ih => exact Nat.le_succ_of_le ih
  | case3 t n hn ih => exact Nat.le_succ_of_le ih
  | case4 t hn ih => exact Nat.succ_le_succ ih
  | case5 c t hc ih => exact Nat.succ_le_succ ih

/-- Leaving out a style code makes the text shorter. -/
theorem IsStyled.length_unstyled_lt {t : Text} (h : t.IsStyled) :
    t.unstyled.length < t.length := by
  unfold unstyled
  induction t with
  | nil =>
    obtain ⟨front, rest, n, heq, -⟩ := h
    simp at heq
  | cons c t ih =>
    rw [unstyledFrom]
    rcases h.of_cons with ⟨rfl, hn⟩ | ht
    · rw [if_pos rfl]
      split
      · exact Nat.lt_succ_of_le (unstyledFrom_length_le _ t)
      · rename_i hnone
        exact absurd hnone hn
    · split
      · split
        · exact Nat.lt_succ_of_le (unstyledFrom_length_le _ t)
        · exact Nat.succ_lt_succ (ih ht)
      · exact Nat.succ_lt_succ (ih ht)

theorem unstyled_eq_self {t : Text} (h : ¬ t.IsStyled) : t.unstyled = t := by
  unfold unstyled
  induction t with
  | nil => rfl
  | cons c t ih =>
    have ht : unstyledFrom 0 t = t := ih fun ht => h (ht.cons c)
    rw [unstyledFrom]
    split
    · rename_i hc
      split
      · rename_i n hn
        exact absurd ⟨[], t, n, by rw [hc]; rfl, hn⟩ h
      · rw [ht]
    · rw [ht]

/-- **A text is left as it is just if there is no style code in it.** -/
theorem unstyled_eq_self_iff {t : Text} : t.unstyled = t ↔ ¬ t.IsStyled := by
  refine ⟨fun heq h => ?_, unstyled_eq_self⟩
  have hlt := h.length_unstyled_lt
  rw [heq] at hlt
  exact Nat.lt_irrefl _ hlt

/-- **A string is left as it is just if there is no style code in it.** -/
theorem ofList_unstyled_eq_iff {t : String} :
    String.ofList (unstyled t.toList) = t ↔ ¬ IsStyled t.toList := by
  rw [← unstyled_eq_self_iff, ← String.toList_inj, String.toList_ofList]

end Text

end CallNotation
