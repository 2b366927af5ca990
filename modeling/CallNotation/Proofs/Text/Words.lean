import CallNotation.Proofs.Token.Lexeme

/-!
# Words that can be told apart in a row

Values are written one behind the other, each as a word. If no word begins with another, the values
can be told from the text, and so can what follows them, as long as no word begins it.

Results:
* `Text.joinLines_cons_append`: lines are words in a row.
* `Text.run_cancel`: a run ends where the text does not go on with it.
* **`Text.PrefixFree.flatMap_append`**: the values in a row and what follows them.
-/

namespace CallNotation.Text

/-- Lines of which each has a line feed behind it. -/
theorem joinLines_cons_append (l : Text) (ls : List Text) :
    joinLines (l :: ls) ++ ['\n'] = (l :: ls).flatMap (· ++ ['\n']) := by
  induction ls generalizing l with
  | nil => simp [joinLines]
  | cons l' ls ih =>
    rw [joinLines, List.intercalate_cons_cons, List.append_assoc, ← joinLines, ih]
    rfl

theorem head?_line {p : Char → Bool} {c : Char} (h : p c = false) (s : Text) :
    ∀ d ∈ (c :: s).head?, p d = false := by
  rintro d ⟨⟩
  exact h

/-- A run is told from a text that begins with it and does not go on with it. -/
theorem run_cancel {p : Char → Bool} {v w s t : Text} (hv : ∀ c ∈ v, p c = true)
    (hw : ∀ c ∈ w, p c = true) (hs : ∀ d ∈ s.head?, p d = false) (ht : ∀ d ∈ t.head?, p d = false)
    (h : v ++ s = w ++ t) : v = w ∧ s = t := by
  have hvw := congrArg (List.takeWhile p) h
  rw [Token.takeWhile_run hv hs, Token.takeWhile_run hw ht] at hvw
  subst hvw
  exact ⟨rfl, List.append_cancel_left h⟩

/-- Texts that begin with the words of two values begin with the word of one value. -/
def PrefixFree {α : Type} (valid : α → Prop) (word : α → Text) : Prop :=
  ∀ ⦃a b : α⦄, valid a → valid b → ∀ ⦃s t : Text⦄, word a ++ s = word b ++ t → a = b

/-- No word begins the text. -/
def BeginsNoWord {α : Type} (valid : α → Prop) (word : α → Text) (s : Text) : Prop :=
  ∀ a, valid a → ∀ t, s ≠ word a ++ t

/-- **Words in a row are told apart**, and from what follows them. -/
theorem PrefixFree.flatMap_append {α : Type} {valid : α → Prop} {word : α → Text}
    (h : PrefixFree valid word) {s t : Text} (hs : BeginsNoWord valid word s)
    (ht : BeginsNoWord valid word t) {xs ys : List α} (hxs : ∀ a ∈ xs, valid a)
    (hys : ∀ a ∈ ys, valid a) (heq : xs.flatMap word ++ s = ys.flatMap word ++ t) :
    xs = ys ∧ s = t := by
  induction xs generalizing ys with
  | nil =>
    cases ys with
    | nil => exact ⟨rfl, heq⟩
    | cons b ys =>
      rw [List.flatMap_cons, List.append_assoc] at heq
      exact absurd heq (hs b (hys b List.mem_cons_self) _)
  | cons a xs ih =>
    obtain ⟨ha, hxs⟩ := List.forall_mem_cons.mp hxs
    rw [List.flatMap_cons, List.append_assoc] at heq
    cases ys with
    | nil => exact absurd heq.symm (ht a ha _)
    | cons b ys =>
      obtain ⟨hb, hys'⟩ := List.forall_mem_cons.mp hys
      rw [List.flatMap_cons, List.append_assoc] at heq
      obtain rfl := h ha hb heq
      obtain ⟨hxs, hst⟩ := ih hxs hys' (List.append_cancel_left heq)
      exact ⟨congrArg (a :: ·) hxs, hst⟩

end CallNotation.Text
