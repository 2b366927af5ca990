import CallNotation.Token.Scan
import Mathlib.Data.List.Basic
import Mathlib.Data.List.TakeWhile

/-!
# Lexemes

A lexeme is a token without its place: a class and a value. `Lexeme.text` spells it, strings in
their quotes, and `Lexeme.Valid` says which values each class has. Where two texts are put side by
side, a run of digits or of letters may go on from the end of the first into the second;
`Text.Apart` excludes that.

Results:
* `Lexeme.exists_longest`: whatever follows a lexeme, a lexeme of its class is read.
* `pieceAt_text`: in front of a text that it stands apart from, a valid lexeme is what `pieceAt`
  reads.
* `lexeme_or_stuck`: a character that is not blank starts a lexeme that is as long as it can be, or
  `Stuck` says why not.
* `pieceAt_stuck`: what `Stuck` describes is refused, with the fault it names.
-/

namespace CallNotation

/-! ## Characters -/

theorem isDigit_iff {c : Char} : c.isDigit = true ↔ 48 ≤ c.toNat ∧ c.toNat ≤ 57 := by
  simp only [Char.isDigit, Bool.and_eq_true, decide_eq_true_eq, UInt32.le_iff_toNat_le, ge_iff_le]
  rfl

theorem isUpper_iff {c : Char} : c.isUpper = true ↔ 65 ≤ c.toNat ∧ c.toNat ≤ 90 := by
  have h : c.isUpper = true ↔ 'A'.val ≤ c.val ∧ c.val ≤ 'Z'.val := decide_eq_true_iff
  rw [h, UInt32.le_iff_toNat_le, UInt32.le_iff_toNat_le]
  rfl

theorem isLower_iff {c : Char} : c.isLower = true ↔ 97 ≤ c.toNat ∧ c.toNat ≤ 122 := by
  have h : c.isLower = (decide ('a'.val ≤ c.val) && decide (c.val ≤ 'z'.val)) := rfl
  rw [h, Bool.and_eq_true, decide_eq_true_eq, decide_eq_true_eq, UInt32.le_iff_toNat_le,
    UInt32.le_iff_toNat_le]
  rfl

theorem isAlpha_iff {c : Char} :
    c.isAlpha = true ↔ 65 ≤ c.toNat ∧ c.toNat ≤ 90 ∨ 97 ≤ c.toNat ∧ c.toNat ≤ 122 := by
  have h : c.isAlpha = (c.isUpper || c.isLower) := rfl
  rw [h, Bool.or_eq_true, isUpper_iff, isLower_iff]

theorem not_isAlpha_of_isDigit {c : Char} (h : c.isDigit = true) : c.isAlpha = false := by
  rw [isDigit_iff] at h
  rw [Bool.eq_false_iff, ne_eq, isAlpha_iff]
  omega

theorem not_isDigit_of_isAlpha {c : Char} (h : c.isAlpha = true) : c.isDigit = false := by
  rw [isAlpha_iff] at h
  rw [Bool.eq_false_iff, ne_eq, isDigit_iff]
  omega

/-- A blank character has a code point of one of the ranges. -/
theorem blankRange_of_isBlank {c : Char} (h : isBlank c = true) :
    ∃ r ∈ blankRanges, r.1 ≤ c.toNat ∧ c.toNat ≤ r.2 := by
  simpa [isBlank, List.any_eq_true] using h

/-- Digits and letters are not blank: no range of blanks holds an ASCII digit or letter. -/
theorem not_isBlank_of_run {c : Char} (h : c.isDigit = true ∨ c.isAlpha = true) :
    isBlank c = false := by
  rw [isDigit_iff, isAlpha_iff] at h
  rw [Bool.eq_false_iff]
  intro hb
  obtain ⟨r, hr, h1, h2⟩ := blankRange_of_isBlank hb
  have hout : ∀ r ∈ blankRanges, r.2 < 48 ∨ 122 < r.1 := by decide
  have := hout r hr
  omega

/-- Nothing but blank characters. -/
def Text.Blank (g : Text) : Prop := ∀ c ∈ g, isBlank c = true

instance (g : Text) : Decidable g.Blank :=
  List.decidableBAll (isBlank · = true) g

/-- Two characters of one run of digits or of letters. -/
def runsOn (c d : Char) : Bool :=
  c.isDigit && d.isDigit || c.isAlpha && d.isAlpha

theorem runsOn_of_blank_left {c : Char} (h : isBlank c = true) (d : Char) :
    runsOn c d = false := by
  have hc := mt not_isBlank_of_run (by rw [h]; exact Bool.noConfusion)
  simp only [not_or, Bool.not_eq_true] at hc
  simp [runsOn, hc.1, hc.2]

theorem runsOn_comm (c d : Char) : runsOn c d = runsOn d c := by
  unfold runsOn
  rw [Bool.and_comm, Bool.and_comm (c.isAlpha)]

/-! ## Texts side by side -/

namespace Text

/-- No run of digits or letters goes on from the end of `a` into `b`. -/
def Apart (a b : Text) : Prop :=
  ∀ c ∈ a.getLast?, ∀ d ∈ b.head?, runsOn c d = false

theorem apart_nil_left (b : Text) : Apart [] b := by
  intro c hc
  cases hc

theorem apart_nil_right (a : Text) : Apart a [] := by
  intro c _ d hd
  cases hd

/-- Only the end of the first text matters. -/
theorem apart_append_left {a b c : Text} (hb : b ≠ []) : Apart (a ++ b) c ↔ Apart b c := by
  unfold Apart
  rw [List.getLast?_append_of_ne_nil _ hb]

/-- Only the beginning of the second text matters. -/
theorem apart_append_right {a b c : Text} (hb : b ≠ []) : Apart a (b ++ c) ↔ Apart a b := by
  unfold Apart
  rw [List.head?_append_of_ne_nil _ hb]

/-- A text stands apart from the beginning of what it stands apart from. -/
theorem Apart.prefix_right {a b c : Text} (h : Apart a (b ++ c)) : Apart a b := by
  by_cases hb : b = []
  · rw [hb]
    exact apart_nil_right a
  · exact (apart_append_right hb).mp h

/-- What a text consists of besides its end does not matter to what may follow it, unless nothing
is left of the end. -/
theorem apart_append {a b c : Text} (ha : Apart a (b ++ c)) (hb : Apart b c) :
    Apart (a ++ b) c := by
  by_cases hnil : b = []
  · rw [hnil, List.append_nil]
    rwa [hnil, List.nil_append] at ha
  · exact (apart_append_left hnil).mpr hb

theorem apart_of_blank_left {a : Text} (ha : Blank a) (b : Text) : Apart a b :=
  fun c hc d _ => runsOn_of_blank_left (ha c (List.mem_of_getLast? hc)) d

theorem apart_of_blank_right (a : Text) {b : Text} (hb : Blank b) : Apart a b := by
  intro c _ d hd
  rw [runsOn_comm]
  exact runsOn_of_blank_left (hb d (List.mem_of_head? hd)) c

/-- Digits and letters apart, what a text begins with goes on with no run. -/
theorem apart_cons {d : Char} (hd : d.isDigit = false) (ha : d.isAlpha = false) (a b : Text) :
    Apart a (d :: b) := by
  rintro c _ _ ⟨⟩
  simp [runsOn, hd, ha]

end Text

/-! ## Lexemes -/

/-- A token without its place. -/
structure Lexeme where
  /-- The class. -/
  kind : Token.Kind
  /-- The value. -/
  value : Text
deriving DecidableEq

namespace Lexeme

/-- The characters that spell the lexeme. -/
def text : Lexeme → Text
  | ⟨.string, value⟩ => '"' :: value ++ ['"']
  | ⟨_, value⟩ => value

/-- The values that each class has. -/
def Valid : Lexeme → Prop
  | ⟨.lparen, value⟩ => value = ['(']
  | ⟨.rparen, value⟩ => value = [')']
  | ⟨.number, value⟩ => value ≠ [] ∧ ∀ c ∈ value, c.isDigit = true
  | ⟨.string, value⟩ => '"' ∉ value
  | ⟨.name, value⟩ => value ≠ [] ∧ ∀ c ∈ value, c.isAlpha = true

/-- The lexeme as a token at an offset. -/
def token (l : Lexeme) (position : Int) : Token :=
  ⟨l.kind, l.value, position⟩

@[simp] theorem token_position (l : Lexeme) (position : Int) :
    (l.token position).position = position := rfl

theorem text_ne_nil {l : Lexeme} (h : l.Valid) : l.text ≠ [] := by
  obtain ⟨kind, value⟩ := l
  cases kind with
  | lparen => rw [Valid] at h; simp [text, h]
  | rparen => rw [Valid] at h; simp [text, h]
  | number => exact h.1
  | string => simp [text]
  | name => exact h.1

end Lexeme

namespace Token

/-- The token without its place. -/
def lexeme (t : Token) : Lexeme :=
  ⟨t.kind, t.value⟩

@[simp] theorem lexeme_token (l : Lexeme) (position : Int) : (l.token position).lexeme = l := rfl

/-! ## Reading one lexeme -/

/-- A run in front of something that does not go on with it is taken as a whole. -/
theorem takeWhile_run {p : Char → Bool} {w s : Text} (hw : ∀ c ∈ w, p c = true)
    (hs : ∀ d ∈ s.head?, p d = false) : (w ++ s).takeWhile p = w := by
  rw [List.takeWhile_append_of_pos hw]
  cases s with
  | nil => simp
  | cons d s => rw [List.takeWhile_cons_of_neg (by rw [hs d rfl]; exact Bool.noConfusion),
      List.append_nil]

/-- What is left behind the longest run does not go on with it. -/
theorem head?_dropWhile_eq_false {p : Char → Bool} (s : Text) :
    ∀ d ∈ (s.dropWhile p).head?, p d = false := by
  intro d hd
  have h := List.head?_dropWhile_not p s
  rw [Option.mem_def.mp hd] at h
  exact h

/-- Whether a lexeme of the class goes on with the character. -/
def Kind.takes : Kind → Char → Bool
  | number, c => c.isDigit
  | name, c => c.isAlpha
  | _, _ => false

end Token

open Token

/-- The end of a lexeme that is a run is of its class; any other lexeme ends in a character that
no run holds. -/
theorem Lexeme.runsOn_getLast {l : Lexeme} (hv : l.Valid) (d : Char) :
    ∀ c ∈ l.text.getLast?, runsOn c d = l.kind.takes d := by
  intro c hc
  obtain ⟨kind, value⟩ := l
  cases kind with
  | lparen =>
    obtain rfl : value = ['('] := hv
    cases hc
    rfl
  | rparen =>
    obtain rfl : value = [')'] := hv
    cases hc
    rfl
  | number =>
    have hd := hv.2 c (List.mem_of_getLast? hc)
    simp [runsOn, Kind.takes, hd, not_isAlpha_of_isDigit hd]
  | string =>
    rw [Option.mem_def, text, List.getLast?_concat] at hc
    cases hc
    rfl
  | name =>
    have ha := hv.2 c (List.mem_of_getLast? hc)
    simp [runsOn, Kind.takes, ha, not_isDigit_of_isAlpha ha]

/-- A lexeme stands apart from what does not go on with it. -/
theorem Lexeme.apart_iff {l : Lexeme} (hv : l.Valid) (s : Text) :
    Text.Apart l.text s ↔ ∀ d ∈ s.head?, l.kind.takes d = false := by
  have hlast := List.getLast?_eq_some_getLast (text_ne_nil hv)
  constructor
  · intro h d hd
    rw [← runsOn_getLast hv d _ hlast]
    exact h _ hlast d hd
  · intro h c hc d hd
    rw [runsOn_getLast hv d c hc]
    exact h d hd

/-- **A lexeme goes on as far as it can.** Whatever follows a lexeme, the two begin with a lexeme of
the same class that stands apart from the rest. -/
theorem Lexeme.exists_longest {l : Lexeme} (hv : l.Valid) (r : Text) :
    ∃ m s, Lexeme.Valid m ∧ m.kind = l.kind ∧ l.text ++ r = m.text ++ s ∧ m.text.Apart s := by
  have hr : r = r.takeWhile l.kind.takes ++ r.dropWhile l.kind.takes :=
    List.takeWhile_append_dropWhile.symm
  have hw : ∀ d ∈ r.takeWhile l.kind.takes, l.kind.takes d = true :=
    fun _ => List.mem_takeWhile_imp
  have hs := head?_dropWhile_eq_false (p := l.kind.takes) r
  generalize r.takeWhile l.kind.takes = w, r.dropWhile l.kind.takes = s at hr hw hs
  subst hr
  -- the classes that are runs take the run behind them, and the others take nothing
  obtain ⟨kind, value⟩ := l
  have hrun : ∀ p : Char → Bool, (value ≠ [] ∧ ∀ c ∈ value, p c = true) →
      (∀ d ∈ w, p d = true) → value ++ w ≠ [] ∧ ∀ c ∈ value ++ w, p c = true :=
    fun p hv hw => ⟨List.append_ne_nil_of_left_ne_nil hv.1 _,
      fun c hc => (List.mem_append.mp hc).elim (hv.2 c) (hw c)⟩
  cases kind with
  | number =>
    have hm : Lexeme.Valid ⟨.number, value ++ w⟩ := hrun _ hv hw
    exact ⟨_, s, hm, rfl, (List.append_assoc _ _ _).symm, (apart_iff hm s).mpr hs⟩
  | name =>
    have hm : Lexeme.Valid ⟨.name, value ++ w⟩ := hrun _ hv hw
    exact ⟨_, s, hm, rfl, (List.append_assoc _ _ _).symm, (apart_iff hm s).mpr hs⟩
  | lparen => exact ⟨_, w ++ s, hv, rfl, rfl, (apart_iff hv _).mpr fun _ _ => rfl⟩
  | rparen => exact ⟨_, w ++ s, hv, rfl, rfl, (apart_iff hv _).mpr fun _ _ => rfl⟩
  | string => exact ⟨_, w ++ s, hv, rfl, rfl, (apart_iff hv _).mpr fun _ _ => rfl⟩

namespace Token

/-! ## What a character starts -/

/-- Whether a token may start with the character. -/
def opensLexeme (c : Char) : Bool :=
  c = '(' || c = ')' || c.isDigit || c = '"' || c.isAlpha

/-- **Why no token starts here.** -/
inductive Stuck (pos : Nat) : Char → Text → Fault → Prop
  | unterminated {t : Text} (h : '"' ∉ t) : Stuck pos '"' t (.unterminatedString (some pos))
  | invalid {c : Char} {t : Text} (hb : isBlank c = false) (h : opensLexeme c = false) :
      Stuck pos c t (.invalidCharacter (String.singleton c) (some pos))

theorem Stuck.not_isBlank {pos : Nat} {c : Char} {t : Text} {f : Fault} (h : Stuck pos c t f) :
    isBlank c = false := by
  cases h with
  | unterminated _ => rfl
  | invalid hb _ => exact hb

/-- What a character that is not blank starts: a lexeme that stands apart from the rest, or
nothing. -/
theorem lexeme_or_stuck (pos : Nat) {c : Char} (hb : isBlank c = false) (t : Text) :
    (∃ l s, Lexeme.Valid l ∧ Text.Apart l.text s ∧ c :: t = l.text ++ s) ∨
      ∃ f, Stuck pos c t f := by
  have hlong : ∀ {l : Lexeme}, l.Valid → l.text = [c] →
      (∃ l s, Lexeme.Valid l ∧ Text.Apart l.text s ∧ c :: t = l.text ++ s) ∨
        ∃ f, Stuck pos c t f := by
    intro l hv hl
    obtain ⟨m, s, hm, -, hms, hs⟩ := Lexeme.exists_longest hv t
    exact .inl ⟨m, s, hm, hs, by rw [← hms, hl, List.singleton_append]⟩
  by_cases hopen : opensLexeme c = true
  · simp only [opensLexeme, Bool.or_eq_true, decide_eq_true_eq] at hopen
    rcases hopen with (((rfl | rfl) | hc) | rfl) | hc
    · exact hlong (l := ⟨.lparen, ['(']⟩) rfl rfl
    · exact hlong (l := ⟨.rparen, [')']⟩) rfl rfl
    · have hv : Lexeme.Valid ⟨.number, [c]⟩ := ⟨List.cons_ne_nil _ _, by simpa using hc⟩
      exact hlong hv rfl
    · by_cases hq : '"' ∈ t
      · obtain ⟨value, s, rfl, hvalue⟩ := List.eq_append_cons_of_mem hq
        have hv : Lexeme.Valid ⟨.string, value⟩ := hvalue
        exact .inl ⟨_, s, hv, (Lexeme.apart_iff hv s).mpr fun _ _ => rfl, by simp [Lexeme.text]⟩
      · exact .inr ⟨_, .unterminated hq⟩
    · have hv : Lexeme.Valid ⟨.name, [c]⟩ := ⟨List.cons_ne_nil _ _, by simpa using hc⟩
      exact hlong hv rfl
  · exact .inr ⟨_, .invalid hb (by simpa using hopen)⟩

/-! ## `pieceAt` -/

theorem pieceAt_digit (pos : Nat) {c : Char} (hc : c.isDigit = true) (t : Text) :
    pieceAt pos c t = .ok ⟨.number, c :: t.takeWhile Char.isDigit,
      (c :: t.takeWhile Char.isDigit).length⟩ := by
  unfold pieceAt
  rw [if_neg, if_neg, if_pos hc]
  all_goals rintro rfl; cases hc

theorem pieceAt_alpha (pos : Nat) {c : Char} (hc : c.isAlpha = true) (t : Text) :
    pieceAt pos c t = .ok ⟨.name, c :: t.takeWhile Char.isAlpha,
      (c :: t.takeWhile Char.isAlpha).length⟩ := by
  unfold pieceAt
  rw [if_neg, if_neg, if_neg (by simp [not_isDigit_of_isAlpha hc]), if_neg, if_pos hc]
  all_goals rintro rfl; cases hc

theorem pieceAt_quote (pos : Nat) (t : Text) :
    pieceAt pos '"' t =
      if (t.takeWhile (· ≠ '"')).length < t.length then
        .ok ⟨.string, t.takeWhile (· ≠ '"'), (t.takeWhile (· ≠ '"')).length + 2⟩
      else .error (.unterminatedString (some pos)) := by
  unfold pieceAt
  rw [if_neg (by decide), if_neg (by decide), if_neg (by decide), if_pos rfl]

/-- A text without quotes is taken as far as the quote behind it. -/
theorem takeWhile_value {value : Text} (h : '"' ∉ value) {s : Text}
    (hs : ∀ d ∈ s.head?, d = '"') : (value ++ s).takeWhile (· ≠ '"') = value :=
  takeWhile_run (fun c hc => decide_eq_true fun e => h (e ▸ hc))
    fun d hd => by simp [hs d hd]

/-- **A valid lexeme is read** in front of a text that it stands apart from. -/
theorem pieceAt_text {l : Lexeme} (hv : l.Valid) {s : Text} (hs : Text.Apart l.text s)
    (pos : Nat) :
    ∃ c t, l.text ++ s = c :: t ∧ isBlank c = false ∧
      pieceAt pos c t = .ok ⟨l.kind, l.value, l.text.length⟩ := by
  have hstop := (Lexeme.apart_iff hv s).mp hs
  obtain ⟨kind, value⟩ := l
  cases kind with
  | lparen =>
    obtain rfl : value = ['('] := hv
    exact ⟨'(', s, rfl, rfl, rfl⟩
  | rparen =>
    obtain rfl : value = [')'] := hv
    exact ⟨')', s, rfl, rfl, rfl⟩
  | number =>
    obtain ⟨hne, hd⟩ := hv
    obtain ⟨c, w, rfl⟩ := List.exists_cons_of_ne_nil hne
    obtain ⟨hc, hw⟩ := List.forall_mem_cons.mp hd
    refine ⟨c, w ++ s, rfl, not_isBlank_of_run (.inl hc), ?_⟩
    rw [pieceAt_digit pos hc, takeWhile_run hw hstop]
    rfl
  | string =>
    refine ⟨'"', value ++ '"' :: s, by simp [Lexeme.text], rfl, ?_⟩
    rw [pieceAt_quote, takeWhile_value hv (by simp), if_pos (by simp)]
    simp [Lexeme.text]
  | name =>
    obtain ⟨hne, ha⟩ := hv
    obtain ⟨c, w, rfl⟩ := List.exists_cons_of_ne_nil hne
    obtain ⟨hc, hw⟩ := List.forall_mem_cons.mp ha
    refine ⟨c, w ++ s, rfl, not_isBlank_of_run (.inr hc), ?_⟩
    rw [pieceAt_alpha pos hc, takeWhile_run hw hstop]
    rfl

/-- **Where no token starts, `pieceAt` says why.** -/
theorem pieceAt_stuck {pos : Nat} {c : Char} {t : Text} {f : Fault} (h : Stuck pos c t f) :
    pieceAt pos c t = .error f := by
  cases h with
  | unterminated h =>
    have ht : t.takeWhile (· ≠ '"') = t := by
      have := takeWhile_value h (s := []) (by simp)
      rwa [List.append_nil] at this
    rw [pieceAt_quote, ht, if_neg (Nat.lt_irrefl _)]
  | invalid hb h =>
    simp only [opensLexeme, Bool.or_eq_false_iff, decide_eq_false_iff_not] at h
    obtain ⟨⟨⟨⟨h1, h2⟩, h3⟩, h4⟩, h5⟩ := h
    unfold pieceAt
    rw [if_neg h1, if_neg h2, if_neg (by simp [h3]), if_neg h4, if_neg (by simp [h5])]

end Token

end CallNotation
