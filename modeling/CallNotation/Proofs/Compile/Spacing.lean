import CallNotation.Proofs.Compile.Language
import CallNotation.Proofs.Expr.Refusal

/-!
# Spacing does not matter

Two texts with the same tokens differ in their blanks alone. Positions go from the tokens into the
faults and nowhere else, so the two compile alike (`Result.SameButPlace`), up to any stage. Blanks
can be put in anywhere but inside a lexeme (`scan_insert`): there the text can be cut, and blanks
stand apart from whatever they are next to.

Result:
* **`compileSource_spacing`**: the two together.
-/

namespace CallNotation

/-- **Blanks that are put in anywhere but inside a lexeme** leave the tokens as they are, but for
their places. -/
theorem scan_insert {a b g : Text} {ts : List Token} (h : scan (a ++ b) = .ok ts)
    (hg : Text.Blank g) (hcut : ∀ t ∈ ts, t.stop ≤ a.length ∨ a.length ≤ t.position) :
    ∃ us, scan (a ++ (g ++ b)) = .ok us ∧ us.map Token.lexeme = ts.map Token.lexeme := by
  obtain ⟨n, hd⟩ := scan_eq_ok_iff.mp h
  have hread := Token.reading_iff.mpr hd
  have hstop : n = 0 + (a ++ b).length := hread.stop_eq rfl
  have hle : 0 + a.length ≤ n := by
    rw [hstop, List.length_append]
    omega
  obtain ⟨hab, us, vs, htok, ha, hb⟩ := hread.cut rfl hle (by simpa using hcut)
  have hagb : Text.Apart a (g ++ b) := by
    cases g with
    | nil => exact hab
    | cons c g =>
      exact (Text.apart_append_right (List.cons_ne_nil c g)).mpr (Text.apart_of_blank_right a hg)
  have h := (Token.reading_iff.mpr ha).append rfl hagb
  rw [Token.drain_blank hg, Token.drain_shift (0 + a.length) g.length b, hb] at h
  refine ⟨us ++ vs.map (Token.shift g.length), scan_eq_ok_iff.mpr ⟨_, h⟩, ?_⟩
  obtain rfl : ts = us ++ vs := htok
  simp [Function.comp_def]

/-- **The outcomes are the same but for places**, where `ts` and `us` are the tokens that were
compiled. -/
inductive Result.SameButPlace (ts us : List Token) :
    Except Fault Result → Except Fault Result → Prop
  | compiled {r r' : Result} (hprogram : r.program = r'.program) (htarget : r.target = r'.target)
      (houtput : r.output = r'.output) : SameButPlace ts us (.ok r) (.ok r')
  | refused {f f' : Fault} (hfamily : f.family = .structural)
      (h : Fault.SameButPlace ts us f f') : SameButPlace ts us (.error f) (.error f')

/-- **Spacing does not matter.** A text with the same tokens, but for their places, compiles alike
up to any stage; and such a text results wherever blanks are put in, if not inside a lexeme. -/
theorem compileSource_spacing {source : Text} {ts : List Token} (h : scan source = .ok ts) :
    (∀ (source' : Text) (us : List Token), scan source' = .ok us →
      ts.map Token.lexeme = us.map Token.lexeme →
      ∀ (c : Compiler) (filename filename' : String),
        Result.SameButPlace ts us (c.compileSource source filename)
          (c.compileSource source' filename')) ∧
    ∀ a b g : Text, source = a ++ b → Text.Blank g →
      (∀ t ∈ ts, t.stop ≤ a.length ∨ a.length ≤ t.position) →
      ∃ us, scan (a ++ (g ++ b)) = .ok us ∧ us.map Token.lexeme = ts.map Token.lexeme := by
  constructor
  · intro source' us hus hlex c filename filename'
    rw [compileSource_eq, compileSource_eq, h, hus]
    by_cases hparse : Stage.parse ≤ c.stopAfter
    · simp only [if_pos hparse]
      rcases parseWithin_congr nestingLimit hlex with ⟨p, hp, hp'⟩ | ⟨f, g, hf, hg, hfg⟩
      · rw [parse, parse, hp, hp']
        exact .compiled rfl rfl rfl
      · rw [parse, parse, hf, hg]
        exact .refused (parseWithin_error_family hf) hfg
    · simp only [if_neg hparse]
      exact .compiled rfl rfl rfl
  · rintro a b g rfl hg hcut
    exact scan_insert h hg hcut

/-- Two texts with the same tokens are both refused, since a number stands for a name, and at the
offset that it has in each of them; and a blank before a parenthesis leaves the tokens as they are.
-/
theorem compileSource_spacing_refused :
    ∃ ts us, scan "(f(1".toList = .ok ts ∧ scan "( f\n( 1 ".toList = .ok us ∧
      ts.map Token.lexeme = us.map Token.lexeme ∧
      ({} : Compiler).compileSource "(f(1".toList =
        .error (.missingCallee "NUMBER '1'" (some 3)) ∧
      ({} : Compiler).compileSource "( f\n( 1 ".toList =
        .error (.missingCallee "NUMBER '1'" (some 6)) ∧
      Result.SameButPlace ts us (({} : Compiler).compileSource "(f(1".toList)
        (({} : Compiler).compileSource "( f\n( 1 ".toList) ∧
      ∃ vs, scan ("(f".toList ++ (" ".toList ++ "(1".toList)) = .ok vs ∧
        vs.map Token.lexeme = ts.map Token.lexeme := by
  have hts : scan "(f(1".toList = .ok [⟨.lparen, "(".toList, 0⟩, ⟨.name, "f".toList, 1⟩,
      ⟨.lparen, "(".toList, 2⟩, ⟨.number, "1".toList, 3⟩] := by decide +kernel
  have hus : scan "( f\n( 1 ".toList = .ok [⟨.lparen, "(".toList, 0⟩, ⟨.name, "f".toList, 2⟩,
      ⟨.lparen, "(".toList, 4⟩, ⟨.number, "1".toList, 6⟩] := by decide +kernel
  have hlex : List.map Token.lexeme [⟨.lparen, "(".toList, 0⟩, ⟨.name, "f".toList, 1⟩,
      ⟨.lparen, "(".toList, 2⟩, ⟨.number, "1".toList, 3⟩] =
    List.map Token.lexeme [⟨.lparen, "(".toList, 0⟩, ⟨.name, "f".toList, 2⟩,
      ⟨.lparen, "(".toList, 4⟩, ⟨.number, "1".toList, 6⟩] := by decide +kernel
  have hrefused : ({} : Compiler).compileSource "(f(1".toList =
      .error (.missingCallee "NUMBER '1'" (some 3)) := by
    rw [compileSource_eq, hts]
    rfl
  have hrefused' : ({} : Compiler).compileSource "( f\n( 1 ".toList =
      .error (.missingCallee "NUMBER '1'" (some 6)) := by
    rw [compileSource_eq, hus]
    rfl
  obtain ⟨hsame, hinsert⟩ := compileSource_spacing hts
  exact ⟨_, _, hts, hus, hlex, hrefused, hrefused', hsame _ _ hus hlex _ _ _,
    hinsert "(f".toList "(1".toList _ (by decide +kernel) (by decide +kernel) (by decide +kernel)⟩

end CallNotation
