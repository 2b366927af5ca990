import CallNotation.Proofs.Token.Reading
import Mathlib.Data.List.Chain

/-!
# Layouts

A layout of a list of lexemes is a text that holds them in order, with runs of blanks before,
between and behind them. `Layout R` asks for a blank where the class of a lexeme and that of the
next are in the relation `R`. Between two numbers and between two names (`Merges`) blanks must not
be missing, since they would be read as one. `Text.Spells` is the same said of the scanner: the
text has tokens, and without their places they are those lexemes.

Results:
* **`spells_iff_layout`**: a text spells a list of lexemes iff the lexemes are valid and the text is
  a layout of them with blanks wherever two merge.
* `Layout.mono`: where no two neighbours need it, a rule about blanks can be dropped.
* `scan_append`: texts that stand apart are read one after the other as each is alone.
-/

namespace CallNotation

/-! ## What a text spells -/

theorem scan_eq_ok_iff {s : Text} {ts : List Token} :
    scan s = .ok ts ↔ ∃ n, Token.drain 0 s = ⟨ts, none, n⟩ := by
  unfold scan
  constructor
  · intro h
    split at h
    · rename_i n hd
      obtain rfl := Except.ok.inj h
      exact ⟨n, hd⟩
    · cases h
  · rintro ⟨n, hd⟩
    rw [hd]

theorem scan_eq_error_iff {s : Text} {f : Fault} :
    scan s = .error f ↔ ∃ ts n, Token.drain 0 s = ⟨ts, some f, n⟩ := by
  unfold scan
  constructor
  · intro h
    split at h
    · cases h
    · rename_i ts g n hd
      obtain rfl := Except.error.inj h
      exact ⟨ts, n, hd⟩
  · rintro ⟨ts, n, hd⟩
    rw [hd]

/-- **Texts that stand apart** are read one after the other as each is alone, the second at later
offsets. -/
theorem scan_append {a b : Text} {ts : List Token} (ha : scan a = .ok ts) (hab : a.Apart b) :
    scan (a ++ b) =
      ((scan b).map (ts ++ ·.map (Token.shift a.length))).mapError (Fault.shift a.length) := by
  obtain ⟨n, hda⟩ := scan_eq_ok_iff.mp ha
  have h := (Token.reading_iff.mpr hda).append rfl hab
  rw [Token.drain_shift 0 a.length b] at h
  cases hb : scan b with
  | ok us =>
    obtain ⟨m, hdb⟩ := scan_eq_ok_iff.mp hb
    rw [hdb] at h
    exact scan_eq_ok_iff.mpr ⟨_, h⟩
  | error f =>
    obtain ⟨us, m, hdb⟩ := scan_eq_error_iff.mp hb
    rw [hdb] at h
    exact scan_eq_error_iff.mpr ⟨_, _, h⟩

/-- The text is read as tokens, and without their places they are `ls`. -/
def Text.Spells (s : Text) (ls : List Lexeme) : Prop :=
  ∃ ts, scan s = .ok ts ∧ ts.map Token.lexeme = ls

namespace Text.Spells

variable {a b s : Text} {ls ms : List Lexeme}

/-- A text spells one list of lexemes at most. -/
theorem unique (hl : s.Spells ls) (hm : s.Spells ms) : ls = ms := by
  obtain ⟨ts, hts, rfl⟩ := hl
  obtain ⟨us, hus, rfl⟩ := hm
  rw [hts] at hus
  cases hus
  rfl

theorem valid (h : s.Spells ls) : ∀ l ∈ ls, l.Valid := by
  obtain ⟨ts, hts, rfl⟩ := h
  obtain ⟨n, hd⟩ := scan_eq_ok_iff.mp hts
  intro l hl
  obtain ⟨t, ht, rfl⟩ := List.mem_map.mp hl
  exact (Token.reading_iff.mpr hd).valid t ht

/-- **Texts that stand apart** spell one after the other what each spells alone. -/
theorem append (ha : a.Spells ls) (hb : b.Spells ms) (hab : a.Apart b) :
    (a ++ b).Spells (ls ++ ms) := by
  obtain ⟨ts, hts, rfl⟩ := ha
  obtain ⟨us, hus, rfl⟩ := hb
  refine ⟨ts ++ us.map (Token.shift a.length), ?_, by simp [Function.comp_def]⟩
  rw [scan_append hts hab, hus]
  rfl

theorem blank (hg : Text.Blank s) : s.Spells [] :=
  ⟨[], scan_eq_ok_iff.mpr ⟨_, (Token.Reading.finished hg).drain_eq⟩, rfl⟩

theorem lexeme {l : Lexeme} (hv : l.Valid) : l.text.Spells [l] := by
  have h := Token.drain_text hv (Text.apart_nil_right l.text) 0
  rw [List.append_nil] at h
  exact ⟨[l.token 0], scan_eq_ok_iff.mpr ⟨_, h⟩, rfl⟩

end Text.Spells

/-! ## Layouts -/

/-- Two lexemes of these classes are read as one if nothing is between them. -/
def Token.Kind.Merges (j k : Token.Kind) : Prop :=
  j = k ∧ (k = .number ∨ k = .name)

/-- A text that holds the lexemes in order, with blanks around them; `k` is the class of the lexeme
in front, if there is one. -/
inductive Layout (R : Token.Kind → Token.Kind → Prop) :
    Option Token.Kind → List Lexeme → Text → Prop
  | nil {k : Option Token.Kind} {g : Text} (hg : Text.Blank g) : Layout R k [] g
  | cons {k : Option Token.Kind} {g : Text} {l : Lexeme} {ls : List Lexeme} {s : Text}
      (hg : Text.Blank g) (hgap : ∀ j ∈ k, R j l.kind → g ≠ []) (h : Layout R (some l.kind) ls s) :
      Layout R k (l :: ls) (g ++ (l.text ++ s))

/-- The blanks that `Q` asks for are there if `R` asks for them, wherever two classes follow each
other. -/
theorem Layout.mono {R Q : Token.Kind → Token.Kind → Prop} {k : Option Token.Kind}
    {ls : List Lexeme} {s : Text} (h : Layout R k ls s)
    (hRQ : (k.toList ++ ls.map Lexeme.kind).IsChain fun i j => Q i j → R i j) :
    Layout Q k ls s := by
  induction h with
  | nil hg => exact .nil hg
  | @cons k g l ls s hg hgap _ ih =>
    rw [List.isChain_append] at hRQ
    refine .cons hg (fun j hj hq => hgap j hj ?_) (ih hRQ.2.1)
    cases hj
    exact hRQ.2.2 j rfl l.kind rfl hq

/-- The empty text is a layout of no lexemes alone. -/
theorem Layout.eq_nil {R : Token.Kind → Token.Kind → Prop} {k : Option Token.Kind}
    {ls : List Lexeme} {s : Text} (h : Layout R k ls s) (hv : ∀ l ∈ ls, l.Valid) (hs : s = []) :
    ls = [] := by
  cases h with
  | nil _ => rfl
  | @cons _ g l ls s _ _ _ =>
    rw [List.append_eq_nil_iff, List.append_eq_nil_iff] at hs
    exact absurd hs.2.1 (Lexeme.text_ne_nil (hv l List.mem_cons_self))

/-- A layout ends in a blank, or as its last lexeme does. -/
theorem Layout.getLast_cases {R : Token.Kind → Token.Kind → Prop} {k : Option Token.Kind}
    {ls : List Lexeme} {s : Text} (h : Layout R k ls s) (hv : ∀ l ∈ ls, l.Valid) :
    ∀ c ∈ s.getLast?, isBlank c = true ∨ ∃ l ∈ ls.getLast?, c ∈ l.text.getLast? := by
  induction h with
  | nil hg => exact fun c hc => .inl (hg c (List.mem_of_getLast? hc))
  | @cons k g l ls s hg _ h ih =>
    intro c hc
    obtain ⟨hl, hv⟩ := List.forall_mem_cons.mp hv
    rw [List.getLast?_append_of_ne_nil _ (by simp [Lexeme.text_ne_nil hl])] at hc
    by_cases hs : s = []
    · obtain rfl := h.eq_nil hv hs
      rw [hs, List.append_nil] at hc
      exact .inr ⟨l, rfl, hc⟩
    · rw [List.getLast?_append_of_ne_nil _ hs] at hc
      rcases ih hv c hc with hb | ⟨m, hm, hmc⟩
      · exact .inl hb
      · refine .inr ⟨m, ?_, hmc⟩
        rw [Option.mem_def] at hm ⊢
        rw [List.getLast?_cons, hm, Option.getD_some]

/-- The first character of a lexeme is taken by just the classes that merge with its own. -/
theorem Lexeme.takes_head_iff {l : Lexeme} (hv : l.Valid) {c : Char} (hc : c ∈ l.text.head?)
    (j : Token.Kind) : j.takes c = true ↔ j.Merges l.kind := by
  obtain ⟨kind, value⟩ := l
  cases kind with
  | lparen =>
    obtain rfl : value = ['('] := hv
    cases hc
    cases j <;> simp [Token.Kind.takes, Token.Kind.Merges]
  | rparen =>
    obtain rfl : value = [')'] := hv
    cases hc
    cases j <;> simp [Token.Kind.takes, Token.Kind.Merges]
  | number =>
    have hd := hv.2 c (List.mem_of_head? hc)
    cases j <;> simp [Token.Kind.takes, Token.Kind.Merges, hd, not_isAlpha_of_isDigit hd]
  | string =>
    cases hc
    cases j <;> simp [Token.Kind.takes, Token.Kind.Merges]
  | name =>
    have ha := hv.2 c (List.mem_of_head? hc)
    cases j <;> simp [Token.Kind.takes, Token.Kind.Merges, ha, not_isDigit_of_isAlpha ha]

theorem Token.Kind.takes_blank (j : Token.Kind) {c : Char} (hc : isBlank c = true) :
    j.takes c = false := by
  have h := mt not_isBlank_of_run (by rw [hc]; exact Bool.noConfusion)
  simp only [not_or, Bool.not_eq_true] at h
  cases j with
  | number => exact h.1
  | name => exact h.2
  | _ => rfl

/-- What a layout begins with is not taken by the lexeme in front of it. -/
theorem Layout.head_not_taken {k : Option Token.Kind} {ls : List Lexeme} {s : Text}
    (h : Layout Token.Kind.Merges k ls s) (hv : ∀ l ∈ ls, l.Valid) :
    ∀ j ∈ k, ∀ c ∈ s.head?, j.takes c = false := by
  intro j hj c hc
  cases h with
  | nil hg => exact j.takes_blank (hg c (List.mem_of_head? hc))
  | @cons _ g l ls s hg hgap h =>
    cases g with
    | cons b g =>
      cases hc
      exact j.takes_blank (hg _ List.mem_cons_self)
    | nil =>
      have hl := hv l List.mem_cons_self
      rw [List.nil_append, List.head?_append_of_ne_nil _ (Lexeme.text_ne_nil hl)] at hc
      rw [Bool.eq_false_iff]
      intro ht
      exact hgap j hj ((Lexeme.takes_head_iff hl hc j).mp ht) rfl

theorem Layout.spells {k : Option Token.Kind} {ls : List Lexeme} {s : Text}
    (h : Layout Token.Kind.Merges k ls s) (hv : ∀ l ∈ ls, l.Valid) : s.Spells ls := by
  induction h with
  | nil hg => exact .blank hg
  | @cons k g l ls s hg _ h ih =>
    obtain ⟨hl, hv⟩ := List.forall_mem_cons.mp hv
    have hls : l.text.Apart s := (Lexeme.apart_iff hl s).mpr (h.head_not_taken hv _ rfl)
    have hspells : (l.text ++ s).Spells (l :: ls) := (Text.Spells.lexeme hl).append (ih hv) hls
    exact (Text.Spells.blank hg).append hspells (Text.apart_of_blank_left hg _)

theorem Token.Reading.layout {pos : Nat} {s : Text} {d : Token.Drained}
    (h : Token.Reading pos s d) (hd : d.fault? = none) :
    ∀ k : Option Token.Kind, (∀ j ∈ k, ∀ c ∈ s.head?, j.takes c = false) →
      Layout Token.Kind.Merges k (d.tokens.map Token.lexeme) s := by
  induction h with
  | finished hg => exact fun k _ => .nil hg
  | stuck _ _ => cases hd
  | @lexeme pos g l s d hg hv hs _ ih =>
    intro k hk
    refine .cons hg ?_ (ih hd _ ?_)
    · rintro j hj hm rfl
      obtain ⟨c, t, ht⟩ := List.exists_cons_of_ne_nil (Lexeme.text_ne_nil hv)
      have hc : j.takes c = true := (Lexeme.takes_head_iff hv (by rw [ht]; rfl) j).mpr hm
      rw [hk j hj c (by rw [ht]; rfl)] at hc
      cases hc
    · rintro j ⟨⟩
      exact (Lexeme.apart_iff hv s).mp hs

/-- **Scanning and laying out are each other's inverse.** -/
theorem spells_iff_layout {s : Text} {ls : List Lexeme} :
    s.Spells ls ↔ Layout Token.Kind.Merges none ls s ∧ ∀ l ∈ ls, l.Valid := by
  constructor
  · intro h
    refine ⟨?_, h.valid⟩
    obtain ⟨ts, hts, rfl⟩ := h
    obtain ⟨n, hd⟩ := scan_eq_ok_iff.mp hts
    exact (Token.reading_iff.mpr hd).layout rfl none (by rintro j ⟨⟩)
  · exact fun h => h.1.spells h.2

end CallNotation
