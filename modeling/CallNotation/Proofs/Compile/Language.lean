import CallNotation.Compile
import CallNotation.Proofs.Expr.Grammar
import CallNotation.Proofs.Node.Target
import CallNotation.Proofs.Token.Layout

/-!
# The language of the compiler, and what its programs mean

Reading a text as tokens and these as a program are the only stages that can fail: a program that
has been read is rewritten and rendered without a fault (`Result.upTo` is what each stage leaves).
So the compiler accepts exactly the texts that are layouts of programs.

Results:
* `compileSource_eq`: a compilation is `scan`, then `parse`, and then cannot fail.
* `compile_eq_ok_iff`, `compile_eq_error_iff`: the same of the rendered text alone.
* `parse_eq_ok_iff_of_scan`: what a text is read as, for a text that has tokens.
* **`compile_language`**: the texts that compile, what they compile to, and why all others do not.
-/

namespace CallNotation

/-! ## The stages -/

/-- What a compilation up to the stage `last` has produced from a text that is a program. -/
def Result.upTo (last : Stage) (filename : String) (tokens : List Token) (p : Program) : Result :=
  { filename
    tokens
    program := some p
    target := if .transform ≤ last then some p.target else none
    output := if .generate ≤ last then p.rendering else [] }

theorem Stage.transform_le_of_generate_le {last : Stage} (h : generate ≤ last) :
    transform ≤ last :=
  Nat.le_trans (by decide) h

theorem generateStage_result (p : Program) (r : Result) :
    (generateStage p.target r).result = .ok { r with output := p.rendering } := by
  rw [generateStage, p.render_target]

theorem transformStage_result (last : Stage) (p : Program) (r : Result) :
    (transformStage last p r).result = .ok { r with
      target := some p.target
      output := if .generate ≤ last then p.rendering else r.output } := by
  rw [transformStage, p.run_toNode]
  by_cases h : Stage.generate ≤ last
  · simp only [if_pos h]
    exact generateStage_result p _
  · simp only [if_neg h]
    rfl

/-- A program that has been read is compiled without a fault. -/
theorem parseStage_result (last : Stage) (filename : String) {ts : List Token} {p : Program}
    (h : parse ts = .ok p) :
    (parseStage last { filename, tokens := ts }).result = .ok (.upTo last filename ts p) := by
  unfold parseStage Result.upTo
  rw [h]
  by_cases ht : Stage.transform ≤ last
  · simp only [if_pos ht]
    exact transformStage_result last p _
  · simp only [if_neg ht, if_neg (mt Stage.transform_le_of_generate_le ht)]
    rfl

/-- **Only `scan` and `parse` can fail.** -/
theorem compileSource_eq (c : Compiler) (source : Text) (filename : String) :
    c.compileSource source filename =
      match scan source with
      | .error f => .error f
      | .ok ts =>
        if .parse ≤ c.stopAfter then
          match parse ts with
          | .error f => .error f
          | .ok p => .ok (.upTo c.stopAfter filename ts p)
        else .ok { filename, tokens := ts } := by
  unfold Compiler.compileSource compileNoting
  cases scan source with
  | error f => rfl
  | ok ts =>
    by_cases hparse : Stage.parse ≤ c.stopAfter
    · simp only [if_pos hparse]
      cases hp : parse ts with
      | error f =>
        simp only [parseStage, hp]
        rfl
      | ok p => exact parseStage_result c.stopAfter filename hp
    · simp only [if_neg hparse]
      rfl

theorem compile_eq (source : Text) :
    compile source =
      match scan source with
      | .error f => .error f
      | .ok ts =>
        match parse ts with
        | .error f => .error f
        | .ok p => .ok p.rendering := by
  unfold compile
  rw [compileSource_eq]
  cases scan source with
  | error f => rfl
  | ok ts =>
    simp only [if_pos (show Stage.parse ≤ Stage.generate from by decide)]
    cases parse ts with
    | error f => rfl
    | ok p => rfl

/-! ## What compiles -/

theorem compile_eq_ok_iff {source output : Text} :
    compile source = .ok output ↔
      ∃ ts p, scan source = .ok ts ∧ parse ts = .ok p ∧ p.rendering = output := by
  rw [compile_eq]
  cases hs : scan source with
  | error f => simp
  | ok ts =>
    cases hp : parse ts with
    | error f => simp [hp]
    | ok p => simp [hp]

theorem compile_eq_error_iff {source : Text} {f : Fault} :
    compile source = .error f ↔
      scan source = .error f ∨ ∃ ts, scan source = .ok ts ∧ parse ts = .error f := by
  rw [compile_eq]
  cases hs : scan source with
  | error f => simp
  | ok ts =>
    cases hp : parse ts with
    | error f => simp [hp]
    | ok p => simp [hp]

/-- The parentheses among the tokens of a text are the characters that they stand for. -/
theorem map_plain_of_scan {source : Text} {ts : List Token} (h : scan source = .ok ts) :
    ts.map Token.plain = ts.map Token.lexeme := by
  have hs : source.Spells (ts.map Token.lexeme) := ⟨ts, h, rfl⟩
  refine List.map_congr_left fun t ht => Token.plain_of_valid ?_
  exact hs.valid _ (List.mem_map_of_mem ht)

/-- The tokens of a text are a program iff they are the program's lexemes. -/
theorem parse_eq_ok_iff_of_scan {source : Text} {ts : List Token} (h : scan source = .ok ts)
    {p : Program} : parse ts = .ok p ↔ ts.map Token.lexeme = p.lexemes ∧ p.Within 256 := by
  rw [parse, parseWithin_eq_ok_iff, map_plain_of_scan h, nestingLimit]

/-- Both lexemes are numbers. -/
def Token.Kind.Numbers (j k : Token.Kind) : Prop :=
  j = .number ∧ k = .number

/-- **A text is a source of a program** if it is a layout of the program's lexemes with blanks at
least between two numbers, and no call of the program stands at a level above 256. -/
structure Program.IsSource (p : Program) (source : Text) : Prop where
  /-- Names and literals are of the language. -/
  valid : p.Valid
  /-- A call at the top level is at level 1. -/
  within : p.Within 256
  /-- The lexemes stand in order, with blanks wherever they may and where they must. -/
  layout : Layout Token.Kind.Numbers none p.lexemes source

/-- Two names never follow each other in a program, so numbers are all that blanks must part. -/
theorem Program.layout_iff (p : Program) (source : Text) :
    Layout Token.Kind.Numbers none p.lexemes source ↔
      Layout Token.Kind.Merges none p.lexemes source := by
  have hchain : (p.lexemes.map Lexeme.kind).IsChain fun i j => ¬ (i = .name ∧ j = .name) := by
    rw [List.isChain_map]
    exact p.isChain_lexemes.imp fun l m h hlm => h hlm.1 hlm.2
  constructor
  · refine fun h => h.mono (hchain.imp fun i j hij hm => ?_)
    obtain ⟨rfl, rfl | rfl⟩ := hm
    · exact ⟨rfl, rfl⟩
    · exact absurd ⟨rfl, rfl⟩ hij
  · refine fun h => h.mono (hchain.imp fun i j _ hn => ?_)
    obtain ⟨rfl, rfl⟩ := hn
    exact ⟨rfl, .inl rfl⟩

theorem Program.isSource_iff {p : Program} {source : Text} :
    p.IsSource source ↔ ∃ ts, scan source = .ok ts ∧ parse ts = .ok p := by
  constructor
  · rintro ⟨hv, hw, hl⟩
    obtain ⟨ts, hts, hlex⟩ :=
      spells_iff_layout.mpr ⟨(p.layout_iff source).mp hl, p.valid_iff.mp hv⟩
    exact ⟨ts, hts, (parse_eq_ok_iff_of_scan hts).mpr ⟨hlex, hw⟩⟩
  · rintro ⟨ts, hts, hp⟩
    obtain ⟨hlex, hw⟩ := (parse_eq_ok_iff_of_scan hts).mp hp
    obtain ⟨hl, hv⟩ := spells_iff_layout.mp ⟨ts, hts, hlex⟩
    exact ⟨p.valid_iff.mpr hv, hw, (p.layout_iff source).mpr hl⟩

/-! ## Why a text does not compile -/

theorem scan_error_family {source : Text} {f : Fault} (h : scan source = .error f) :
    f.family = .lexical := by
  obtain ⟨ts, n, hd⟩ := scan_eq_error_iff.mp h
  exact (Token.reading_iff.mpr hd).fault_family f rfl

theorem parse_error_family {ts : List Token} {f : Fault} (h : parse ts = .error f) :
    f.family = .structural :=
  parseWithin_error_family h

/-- **The language of the compiler.** A text compiles iff it is a source of a program; the program
is then the only one, and the output is its rendering. Any other text is refused with the fault of
`scan`, or if it has tokens, with the fault that `parse` finds in them. -/
theorem compile_language (source : Text) :
    (∀ output, compile source = .ok output ↔
      ∃ p : Program, p.IsSource source ∧ p.rendering = output) ∧
    (∀ p q : Program, p.IsSource source → q.IsSource source → p = q) ∧
    (∀ f, compile source = .error f ↔
      (scan source = .error f ∧ f.family = .lexical) ∨
        ∃ ts, scan source = .ok ts ∧ parse ts = .error f ∧ f.family = .structural) := by
  refine ⟨fun output => ?_, fun p q hp hq => ?_, fun f => ?_⟩
  · rw [compile_eq_ok_iff]
    constructor
    · rintro ⟨ts, p, hts, hp, rfl⟩
      exact ⟨p, Program.isSource_iff.mpr ⟨ts, hts, hp⟩, rfl⟩
    · rintro ⟨p, hp, rfl⟩
      obtain ⟨ts, hts, hp⟩ := Program.isSource_iff.mp hp
      exact ⟨ts, p, hts, hp, rfl⟩
  · obtain ⟨ts, hts, hp⟩ := Program.isSource_iff.mp hp
    obtain ⟨us, hus, hq⟩ := Program.isSource_iff.mp hq
    rw [hts] at hus
    cases hus
    rw [hp] at hq
    exact Except.ok.inj hq
  · rw [compile_eq_error_iff]
    constructor
    · rintro (h | ⟨ts, hts, hp⟩)
      · exact .inl ⟨h, scan_error_family h⟩
      · exact .inr ⟨ts, hts, hp, parse_error_family hp⟩
    · rintro (⟨h, -⟩ | ⟨ts, hts, hp, -⟩)
      · exact .inl h
      · exact .inr ⟨ts, hts, hp⟩

end CallNotation
