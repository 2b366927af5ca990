import CallNotation.Proofs.Text.Words
import CallNotation.Text.Quoted

/-!
# Reading quoted text

`Written` lists the ways in which a character is written between quotes. `unescape` reads the
character that a text between quotes begins with: the first one or, behind a backslash, what the
second and the digits that it announces stand for. Nothing is written with the quote in use in
front, and that quote is the first character of the whole, so quoted text can be told from what
follows it, whatever that is.

Results:
* `Text.written_escape`: a character is written in one of the ways listed.
* `Text.Written.unescape_eq`: and read from what it is written as.
* **`Text.quoted_cancel`**: a quoted text is told from what follows it, and tells its text.
* **`Text.isPrintable_of_mem_quoted`**: quoted text is printable.
-/

namespace CallNotation.Text

/-! ## Hexadecimal numerals -/

/-- The value of a hexadecimal digit in lower case. -/
def digitValue (c : Char) : Nat :=
  if c.isDigit then c.toNat - 0x30 else c.toNat - 0x57

/-- The number that a hexadecimal numeral stands for. -/
def hexValue (t : Text) : Nat :=
  t.foldl (fun n c => 16 * n + digitValue c) 0

theorem digitValue_hexDigit : ∀ n < 16, digitValue (hexDigit n) = n := by
  decide

theorem isPrintable_hexDigit : ∀ n < 16, isPrintable (hexDigit n) = true := by
  decide

theorem length_hex (width n : Nat) : (hex width n).length = width := by
  induction width generalizing n with
  | zero => rfl
  | succ width ih => rw [hex, List.length_append, ih, List.length_singleton]

/-- A numeral stands for what its digits hold of the number. -/
theorem hexValue_hex (width n : Nat) : hexValue (hex width n) = n % Nat.pow 16 width := by
  induction width generalizing n with
  | zero => exact (Nat.mod_one n).symm
  | succ width ih =>
    have hdigit : digitValue (hexDigit (n % 16)) = n % 16 :=
      digitValue_hexDigit _ (Nat.mod_lt _ (by decide))
    calc hexValue (hex (width + 1) n)
        = 16 * hexValue (hex width (n / 16)) + digitValue (hexDigit (n % 16)) := by
          rw [hexValue, hex, List.foldl_append]
          rfl
      _ = n % 16 + 16 * (n / 16 % Nat.pow 16 width) := by rw [ih, hdigit, Nat.add_comm]
      _ = n % (16 * Nat.pow 16 width) := Nat.mod_mul.symm
      _ = n % Nat.pow 16 (width + 1) := by rw [Nat.mul_comm]; rfl

theorem isPrintable_of_mem_hex {width n : Nat} {c : Char} (h : c ∈ hex width n) :
    isPrintable c = true := by
  induction width generalizing n with
  | zero => exact absurd h List.not_mem_nil
  | succ width ih =>
    rcases List.mem_append.mp h with h | h
    · exact ih h
    · rw [List.mem_singleton.mp h]
      exact isPrintable_hexDigit _ (Nat.mod_lt _ (by decide))

/-! ## Escapes -/

/-- A quote. -/
def IsQuote (q : Char) : Prop :=
  q = apostrophe ∨ q = '"'

/-- The characters that are written as a backslash and a letter, with their letters. -/
def controlLetters : List (Char × Char) :=
  [('\n', 'n'), ('\r', 'r'), ('\t', 't')]

/-- The letters in front of a code point, each with the number of the digits behind it. -/
def codePointLetters : List (Char × Nat) :=
  [('x', 2), ('u', 4), ('U', 8)]

/-- **The ways a character is written** between quotes `q`. -/
inductive Written (q : Char) : Char → Text → Prop
  /-- Behind a backslash, if it is the quote or a backslash itself. -/
  | marked {c : Char} (h : c = q ∨ c = '\\') : Written q c ['\\', c]
  /-- As a letter behind a backslash. -/
  | lettered {c l : Char} (h : (c, l) ∈ controlLetters) : Written q c ['\\', l]
  /-- As it is. -/
  | shown {c : Char} (hq : c ≠ q) (hb : c ≠ '\\') (h : isPrintable c = true) : Written q c [c]
  /-- As its code point. -/
  | numbered {c l : Char} {width : Nat} (h : (l, width) ∈ codePointLetters)
      (hc : c.toNat < Nat.pow 16 width) : Written q c ('\\' :: l :: hex width c.toNat)

theorem codePoint_lt (c : Char) : c.toNat < 0x110000 := by
  rcases c.valid with h | ⟨-, h⟩
  · exact Nat.lt_trans h (by decide)
  · exact h

theorem written_codePointEscape (q c : Char) : Written q c (codePointEscape c) := by
  unfold codePointEscape
  split
  · exact .numbered (by decide) ‹_›
  · split
    · exact .numbered (by decide) ‹_›
    · exact .numbered (by decide) (Nat.lt_trans (codePoint_lt c) (by decide))

theorem written_escape (q c : Char) : Written q c (escape q c) := by
  unfold escape
  split
  · exact .marked ‹_›
  · rename_i hmark
    obtain ⟨hq, hb⟩ := not_or.mp hmark
    split
    · rename_i hc
      exact .lettered (by rw [hc]; decide)
    · split
      · rename_i hc
        exact .lettered (by rw [hc]; decide)
      · split
        · rename_i hc
          exact .lettered (by rw [hc]; decide)
        · split
          · exact .shown hq hb ‹_›
          · exact written_codePointEscape q c

/-! ## Reading -/

/-- The character whose code point the first `width` digits of the text give. -/
def ofHex (width : Nat) (t : Text) : Char :=
  Char.ofNat (hexValue (t.take width))

/-- The character that the text, written between quotes, begins with. -/
def unescape : Text → Char
  | '\\' :: 'n' :: _ => '\n'
  | '\\' :: 'r' :: _ => '\r'
  | '\\' :: 't' :: _ => '\t'
  | '\\' :: 'x' :: t => ofHex 2 t
  | '\\' :: 'u' :: t => ofHex 4 t
  | '\\' :: 'U' :: t => ofHex 8 t
  | '\\' :: c :: _ => c
  | c :: _ => c
  | [] => '\\'

theorem ofHex_hex {width : Nat} {c : Char} (h : c.toNat < Nat.pow 16 width) (s : Text) :
    ofHex width (hex width c.toNat ++ s) = c := by
  rw [ofHex, List.take_left' (length_hex width _), hexValue_hex, Nat.mod_eq_of_lt h,
    Char.ofNat_toNat]

theorem unescape_cons {c : Char} (h : c ≠ '\\') (s : Text) : unescape (c :: s) = c := by
  unfold unescape
  split <;> simp_all

variable {q c : Char} {w : Text}

/-- **What a character is written as is read as the character.** -/
theorem Written.unescape_eq (h : Written q c w) (hq : IsQuote q) (s : Text) :
    unescape (w ++ s) = c := by
  cases h with
  | marked h =>
    rcases h with rfl | rfl
    · rcases hq with rfl | rfl <;> rfl
    · rfl
  | lettered h =>
    simp only [controlLetters, List.mem_cons, Prod.mk.injEq, List.not_mem_nil, or_false] at h
    rcases h with ⟨rfl, rfl⟩ | ⟨rfl, rfl⟩ | ⟨rfl, rfl⟩ <;> rfl
  | shown _ hb _ => exact unescape_cons hb s
  | numbered h hc =>
    simp only [codePointLetters, List.mem_cons, Prod.mk.injEq, List.not_mem_nil, or_false] at h
    rcases h with ⟨rfl, rfl⟩ | ⟨rfl, rfl⟩ | ⟨rfl, rfl⟩ <;> exact ofHex_hex hc s

/-- Nothing is written with the quote in front. -/
theorem Written.ne_cons (h : Written q c w) (hq : IsQuote q) (s t : Text) : q :: s ≠ w ++ t := by
  have hb : q ≠ '\\' := by rcases hq with rfl | rfl <;> decide
  intro heq
  cases h with
  | marked _ => exact hb (List.cons.inj heq).1
  | lettered _ => exact hb (List.cons.inj heq).1
  | shown hc _ _ => exact hc (List.cons.inj heq).1.symm
  | numbered _ _ => exact hb (List.cons.inj heq).1

theorem Written.all_isPrintable (h : Written q c w) (hq : IsQuote q) :
    w.all isPrintable = true := by
  cases h with
  | marked h =>
    rcases h with rfl | rfl
    · rcases hq with rfl | rfl <;> decide
    · decide
  | lettered h =>
    simp only [controlLetters, List.mem_cons, Prod.mk.injEq, List.not_mem_nil, or_false] at h
    rcases h with ⟨rfl, rfl⟩ | ⟨rfl, rfl⟩ | ⟨rfl, rfl⟩ <;> decide
  | shown _ _ h => rw [List.all_cons, h, List.all_nil, Bool.and_self]
  | @numbered l width h _ =>
    have hletters : codePointLetters.all (fun p => isPrintable p.1) = true := by decide
    have hl : isPrintable l = true := List.all_eq_true.mp hletters _ h
    have hdigits : (hex width c.toNat).all isPrintable = true :=
      List.all_eq_true.mpr fun d hd => isPrintable_of_mem_hex hd
    rw [List.all_cons, List.all_cons, hl, hdigits, Bool.and_true, Bool.and_true]
    rfl

/-! ## Quoted text -/

theorem isQuote_quoteFor (t : Text) : IsQuote (quoteFor t) := by
  unfold quoteFor
  split
  · exact .inr rfl
  · exact .inl rfl

theorem prefixFree_escape (hq : IsQuote q) : PrefixFree (fun _ => True) (escape q) := by
  intro a b _ _ s t h
  rw [← (written_escape q a).unescape_eq hq s, h, (written_escape q b).unescape_eq hq t]

/-- **Quoted text is told from what follows it**, and tells the text that is quoted. -/
theorem quoted_cancel {t u s s' : Text} (h : quoted t ++ s = quoted u ++ s') :
    t = u ∧ s = s' := by
  have hends : ∀ v r : Text, quoted v ++ r =
      quoteFor v :: (v.flatMap (escape (quoteFor v)) ++ quoteFor v :: r) := by
    intro v r
    simp [quoted]
  rw [hends, hends] at h
  obtain ⟨hquote, h⟩ := List.cons.inj h
  have hq := isQuote_quoteFor u
  rw [hquote] at h
  have hclose : ∀ r, BeginsNoWord (fun _ => True) (escape (quoteFor u)) (quoteFor u :: r) :=
    fun r a _ => (written_escape _ a).ne_cons hq r
  obtain ⟨htext, hrest⟩ := (prefixFree_escape hq).flatMap_append (hclose s) (hclose s')
    (fun _ _ => trivial) (fun _ _ => trivial) h
  exact ⟨htext, (List.cons.inj hrest).2⟩

theorem quoted_inj {t u : Text} : quoted t = quoted u ↔ t = u := by
  refine ⟨fun h => ?_, congrArg quoted⟩
  have h : quoted t ++ [] = quoted u ++ [] := congrArg (· ++ []) h
  exact (quoted_cancel h).1

/-- **Quoted text is printable**, whatever text is quoted. -/
theorem isPrintable_of_mem_quoted {t : Text} (h : c ∈ quoted t) :
    isPrintable c = true := by
  have hq := isQuote_quoteFor t
  have hquote : isPrintable (quoteFor t) = true := by
    rcases hq with h | h <;> rw [h] <;> decide
  rcases List.mem_append.mp h with h | h
  · rcases List.mem_cons.mp h with rfl | h
    · exact hquote
    · obtain ⟨a, -, ha⟩ := List.mem_flatMap.mp h
      exact List.all_eq_true.mp ((written_escape _ a).all_isPrintable hq) c ha
  · rw [List.mem_singleton.mp h]
    exact hquote

end CallNotation.Text
