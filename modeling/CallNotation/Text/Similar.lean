import CallNotation.Text.Basic

/-!
# Similar texts

How many characters two texts share is counted by runs: the longest that stands in both, then the
longest in front of it in both, and the longest behind it, and so on. Two texts are similar if the
shared characters are three fifths of all of them, each counted in both texts.
-/

namespace CallNotation.Text

/-- The number of characters with which both texts begin. -/
def sharedStart : Text → Text → Nat
  | c :: a, d :: b => if c = d then sharedStart a b + 1 else 0
  | _, _ => 0

/-- A run of characters that stands in two texts. -/
structure SharedRun where
  /-- The number of characters in front of it in the first text. -/
  first : Nat
  /-- The number of characters in front of it in the second text. -/
  second : Nat
  /-- The number of its characters. -/
  length : Nat

/-- The longest run that stands in both texts, the first in the first text if there are several, and
of these the first in the second. -/
def longestRun (a b : Text) : SharedRun :=
  let runs := (List.range a.length).flatMap fun i =>
    (List.range b.length).map fun j => ⟨i, j, sharedStart (a.drop i) (b.drop j)⟩
  runs.foldl (fun best run => if best.length < run.length then run else best) ⟨0, 0, 0⟩

/-- The number of characters that the texts share. -/
def sharedCount (a b : Text) : Nat :=
  match longestRun a b with
  | ⟨i, j, n⟩ =>
    if _ : i < a.length ∧ 0 < n then
      sharedCount (a.take i) (b.take j) + n + sharedCount (a.drop (i + n)) (b.drop (j + n))
    else 0
termination_by a.length
decreasing_by
  · rw [List.length_take]
    omega
  · rw [List.length_drop]
    omega

/-- Whether the texts are similar. -/
def isSimilar (a b : Text) : Bool :=
  3 * (a.length + b.length) ≤ 10 * sharedCount a b

/-- Whether `a` is in front of `b` in alphabetical order. -/
def isBefore (a b : Text) : Bool :=
  a.lex b fun c d => c.toNat < d.toNat

/-- Whether `a` is more similar to `t` than `b` is, or as similar and behind it in the alphabet. -/
def isNearer (t a b : Text) : Bool :=
  let nearness := sharedCount a t * (b.length + t.length)
  let nearness' := sharedCount b t * (a.length + t.length)
  nearness' < nearness || nearness' = nearness && !a.isBefore b

/-- The three of the texts that are most similar to `t`, as far as there are similar ones, in
alphabetical order. -/
def mostSimilar (t : Text) (texts : List Text) : List Text :=
  (((texts.filter (isSimilar · t)).mergeSort (isNearer t)).take 3).mergeSort fun a b => !b.isBefore a

end CallNotation.Text
