import CallNotation.Proofs.CommandLine.Agreement
import CallNotation.Proofs.Text.Quoted
import Mathlib

/-!
# What a token dump tells

A line of a dump has the class of a token in a column of its own and the value as quoted text. Both
can be read from it. As quoted text is printable, no line holds a line feed, so the lines of a dump
are those of its tokens, in order, whatever strings the program has. Neither does it hold an escape
character, so it is printed as it is.

Results:
* `Token.describe_inj`: a token can be read from its description.
* `tokenDump_splitOn`: the lines of a dump.
* `tokenDump_inj`: tokens can be read from their dump, but for their places.
* `Starts.prints_tokens`: what a run prints that is asked for the tokens.
* **`tokenDump_tells_tokens`**: the dumps of program texts.
-/

namespace CallNotation

/-! ## Classes -/

namespace Token.Kind

theorem all_isAlpha_label (k : Kind) : k.label.toList.all Char.isAlpha = true := by
  cases k <;> decide +kernel

/-- The column that a dump shows the class in. -/
def column (k : Kind) : Text :=
  Text.padRight 8 k.label.toList

theorem column_inj {j k : Kind} : j.column = k.column ↔ j = k := by
  cases j <;> cases k <;> decide +kernel

theorem label_inj {j k : Kind} : j.label.toList = k.label.toList ↔ j = k :=
  ⟨fun h => column_inj.mp (congrArg (Text.padRight 8) h), fun h => h ▸ rfl⟩

theorem length_column (k : Kind) : k.column.length = 8 := by
  cases k <;> decide +kernel

theorem all_isPrintable_column (k : Kind) : k.column.all isPrintable = true := by
  cases k <;> decide +kernel

end Token.Kind

/-! ## Descriptions -/

namespace Text

theorem ofInt_inj {m n : Int} : ofInt m = ofInt n ↔ m = n :=
  ⟨fun h => Int.repr_injective (String.toList_inj.mp h), congrArg ofInt⟩

end Text

/-- **A token can be read from its description.** -/
theorem Token.describe_inj {t u : Token} : t.describe = u.describe ↔ t = u := by
  refine ⟨fun h => ?_, congrArg describe⟩
  have h : "Token(".toList ++ t.kind.label.toList ++ ", ".toList ++ Text.quoted t.value
        ++ ", ".toList ++ Text.ofInt t.position ++ ")".toList =
      "Token(".toList ++ u.kind.label.toList ++ ", ".toList ++ Text.quoted u.value
        ++ ", ".toList ++ Text.ofInt u.position ++ ")".toList := h
  simp only [List.append_assoc] at h
  have h := List.append_cancel_left h
  have hcomma (s : Text) : ∀ d ∈ (", ".toList ++ s).head?, d.isAlpha = false :=
    Text.head?_line (by decide : ','.isAlpha = false) (' ' :: s)
  obtain ⟨hkind, h⟩ := Text.run_cancel (List.all_eq_true.mp t.kind.all_isAlpha_label)
    (List.all_eq_true.mp u.kind.all_isAlpha_label) (hcomma _) (hcomma _) h
  obtain ⟨hvalue, h⟩ := Text.quoted_cancel (List.append_cancel_left h)
  have hposition := List.append_cancel_right (List.append_cancel_left h)
  obtain ⟨kind, value, position⟩ := t
  obtain rfl := Kind.label_inj.mp hkind
  obtain rfl := hvalue
  obtain rfl := Text.ofInt_inj.mp hposition
  rfl

/-! ## Dumps -/

/-- The line of a dump that a token without its place has. -/
def Lexeme.dumpLine (l : Lexeme) : Text :=
  l.kind.column ++ ' ' :: Text.quoted l.value

/-- **A line of a dump tells the class and the value of its token.** -/
theorem Lexeme.dumpLine_injective : Function.Injective Lexeme.dumpLine := by
  intro l m h
  obtain ⟨hcolumn, hvalue⟩ := List.append_inj h (by rw [l.kind.length_column, m.kind.length_column])
  obtain ⟨kind, value⟩ := l
  obtain rfl := Token.Kind.column_inj.mp hcolumn
  obtain rfl := Text.quoted_inj.mp (List.cons.inj hvalue).2
  rfl

theorem map_dumpLine (ts : List Token) :
    ts.map Token.dumpLine = (ts.map Token.lexeme).map Lexeme.dumpLine := by
  rw [List.map_map]
  rfl

theorem Token.isPrintable_of_mem_dumpLine {t : Token} {c : Char} (h : c ∈ t.dumpLine) :
    isPrintable c = true := by
  rcases List.mem_append.mp h with h | h
  · exact List.all_eq_true.mp t.kind.all_isPrintable_column c h
  · rcases List.mem_cons.mp h with rfl | h
    · decide
    · exact Text.isPrintable_of_mem_quoted h

/-- **The lines of a dump** are those of the tokens, in order. -/
theorem tokenDump_splitOn {ts : List Token} (h : ts ≠ []) :
    (tokenDump ts).splitOn '\n' = ts.map Token.dumpLine := by
  refine List.splitOn_intercalate '\n' (fun line hline hmem => ?_) (mt List.map_eq_nil_iff.mp h)
  obtain ⟨t, -, rfl⟩ := List.mem_map.mp hline
  exact absurd (Token.isPrintable_of_mem_dumpLine hmem) (by decide)

theorem tokenDump_ne_nil {ts : List Token} (h : ts ≠ []) : tokenDump ts ≠ [] := by
  intro hnil
  have hlines := tokenDump_splitOn h
  rw [hnil] at hlines
  have hmem : [] ∈ ts.map Token.dumpLine := hlines ▸ List.mem_singleton_self []
  obtain ⟨t, -, ht⟩ := List.mem_map.mp hmem
  exact List.cons_ne_nil _ _ (List.append_eq_nil_iff.mp ht).2

/-- **Tokens can be read from their dump**, but for their places. -/
theorem tokenDump_inj {ts us : List Token} :
    tokenDump ts = tokenDump us ↔ ts.map Token.lexeme = us.map Token.lexeme := by
  constructor
  · intro h
    have hlines : ts.map Token.dumpLine = us.map Token.dumpLine := by
      by_cases hts : ts = []
      · have hus : us = [] := by
          by_contra hus
          exact tokenDump_ne_nil hus (by rw [← h, hts]; rfl)
        rw [hts, hus]
      · have hus : us ≠ [] := by
          rintro rfl
          exact tokenDump_ne_nil hts h
        rw [← tokenDump_splitOn hts, h, tokenDump_splitOn hus]
    rw [map_dumpLine, map_dumpLine] at hlines
    exact List.map_injective_iff.mpr Lexeme.dumpLine_injective hlines
  · intro h
    rw [tokenDump, tokenDump, map_dumpLine, map_dumpLine, h]

/-- A dump holds no characters but line feeds and printable ones. -/
theorem eq_or_isPrintable_of_mem_tokenDump {ts : List Token} {c : Char} (h : c ∈ tokenDump ts) :
    c = '\n' ∨ isPrintable c = true := by
  cases ts with
  | nil => exact absurd h List.not_mem_nil
  | cons t ts =>
    have hmem : c ∈ ((t :: ts).map Token.dumpLine).flatMap (· ++ ['\n']) := by
      rw [List.map_cons, ← Text.joinLines_cons_append]
      exact List.mem_append_left _ h
    obtain ⟨line, hline, hc⟩ := List.mem_flatMap.mp hmem
    obtain ⟨u, -, rfl⟩ := List.mem_map.mp hline
    rcases List.mem_append.mp hc with hc | hc
    · exact .inr (Token.isPrintable_of_mem_dumpLine hc)
    · exact .inl (List.mem_singleton.mp hc)

/-- The characters that are taken for the end of a line somewhere, the line feed apart. -/
example : ['\r', '\x0b', '\x0c', '\x1c', '\x1d', '\x1e', '\x85', '\u2028', '\u2029'].all
    (fun c => !isPrintable c) = true := by
  decide +kernel

/-! ## Runs -/

section

variable {io : Streams} {f : Frontend} {s : Store} {stdin : Bytes} {arguments : List String}
  {q : Request} {input : Input} {source : Text} {ts : List Token}

/-- What is asked for with the tokens of a source is their dump. -/
theorem Invocation.selected_tokens {i : Invocation} (hi : i.tokens = true)
    (hts : scan source = .ok ts) : i.selected source = .ok (tokenDump ts) := by
  rw [selected, hi, hts]
  rfl

/-- There is no style code in a dump. -/
theorem not_isStyled_tokenDump (ts : List Token) : ¬ Text.IsStyled (tokenDump ts) := by
  rintro ⟨front, rest, -, heq, -⟩
  have hmem : '\x1b' ∈ tokenDump ts := heq ▸ List.mem_append_right front List.mem_cons_self
  exact absurd (eq_or_isPrintable_of_mem_tokenDump hmem) (by decide)

/-- **A run that is asked for the tokens prints their dump**, as it is. -/
theorem Starts.prints_tokens (hf : f.Lawful io) (h : Starts io s stdin arguments q input)
    (hq : q.tokens = true) (ho : q.output = none) (hs : input.text = .ok source)
    (hts : scan source = .ok ts) :
    (run f s stdin arguments).code = 0 ∧
      (run f s stdin arguments).stdout = String.ofList (tokenDump ts) ++ "\n" := by
  have hecho : f.echo .output (String.ofList (tokenDump ts)) =
      String.ofList (tokenDump ts) ++ "\n" := by
    rw [hf.echo_eq_iff, String.toList_ofList]
    exact .inr (not_isStyled_tokenDump ts)
  rw [← hecho]
  exact h.prints hf hs (Invocation.selected_tokens hq hts) ho

end

/-! ## Program texts -/

/-- **Dumps and descriptions lose nothing of what they show.** What is asked for with the tokens of
a source is their dump.

* Two sources have one dump just if their tokens have the same classes and values, in order.
* Where there are tokens, the dump has as many lines, and each is the line of its token. This tells
  the class and the value.
* But for the line feeds between the lines, all characters of a dump are printable.
* Two tokens, whatever their values and places, have one description just if they are the same. -/
theorem tokenDump_tells_tokens {source source' : Text} {ts us : List Token}
    (hts : scan source = .ok ts) (hus : scan source' = .ok us) :
    (∀ i : Invocation, i.tokens = true →
      i.selected source = .ok (tokenDump ts) ∧ i.selected source' = .ok (tokenDump us)) ∧
    (tokenDump ts = tokenDump us ↔ ts.map Token.lexeme = us.map Token.lexeme) ∧
    (ts ≠ [] → (tokenDump ts).splitOn '\n' = ts.map Token.dumpLine ∧
      ((tokenDump ts).splitOn '\n').length = ts.length) ∧
    (∀ c ∈ tokenDump ts, c = '\n' ∨ isPrintable c = true) ∧
    (∀ t u : Token, t.dumpLine = u.dumpLine ↔ t.lexeme = u.lexeme) ∧
    ∀ t u : Token, t.describe = u.describe ↔ t = u := by
  refine ⟨fun i hi => ⟨i.selected_tokens hi hts, i.selected_tokens hi hus⟩, tokenDump_inj,
    fun hne => ?_, fun _ => eq_or_isPrintable_of_mem_tokenDump, fun t u => ?_,
    fun _ _ => Token.describe_inj⟩
  · have hlines := tokenDump_splitOn hne
    exact ⟨hlines, by rw [hlines, List.length_map]⟩
  · exact Lexeme.dumpLine_injective.eq_iff (a := t.lexeme) (b := u.lexeme)

/-- A line separator in a string, in sources that differ in a blank. -/
theorem tokenDump_tells_tokens_separator :
    (scan ['f', '"', '\u2028', '"'] = .ok [⟨.name, ['f'], 0⟩, ⟨.string, ['\u2028'], 1⟩] ∧
      scan ['f', ' ', '"', '\u2028', '"'] = .ok [⟨.name, ['f'], 0⟩, ⟨.string, ['\u2028'], 2⟩]) ∧
    tokenDump [⟨.name, ['f'], 0⟩, ⟨.string, ['\u2028'], 1⟩] =
      tokenDump [⟨.name, ['f'], 0⟩, ⟨.string, ['\u2028'], 2⟩] ∧
    (tokenDump [⟨.name, ['f'], 0⟩, ⟨.string, ['\u2028'], 1⟩]).splitOn '\n' =
      ["NAME     'f'".toList, "STRING   '\\u2028'".toList] := by
  have hts : scan ['f', '"', '\u2028', '"'] =
      .ok [⟨.name, ['f'], 0⟩, ⟨.string, ['\u2028'], 1⟩] := by decide +kernel
  have hus : scan ['f', ' ', '"', '\u2028', '"'] =
      .ok [⟨.name, ['f'], 0⟩, ⟨.string, ['\u2028'], 2⟩] := by decide +kernel
  obtain ⟨-, hiff, hlines, -⟩ := tokenDump_tells_tokens hts hus
  refine ⟨⟨hts, hus⟩, hiff.mpr rfl, ?_⟩
  rw [(hlines (List.cons_ne_nil _ _)).1]
  decide +kernel

end CallNotation
