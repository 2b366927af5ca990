import CallNotation.Proofs.Compile.Language
import CallNotation.Proofs.Expr.Sequence

/-!
# Texts one after the other

A text that compiles leaves nothing open: its last token ends with it, no call waits for a
parenthesis, and its program is rendered line by line. So what follows it is compiled as if it stood
alone, unless the two meet in the middle of a number. They never meet in the middle of a name, since
no program ends in one (`Program.IsSource.apart`).

* `Text.stacked` puts one output beneath another.

Result:
* **`compile_append`**: two texts in a row compile to the one output beneath the other, or to the
  fault of the second, at a later offset.
-/

namespace CallNotation

/-! ## Outputs one beneath the other -/

/-- The second text beneath the first, where an empty text takes up no line. -/
def Text.stacked (a b : Text) : Text :=
  if a = [] then b else if b = [] then a else a ++ '\n' :: b

theorem Text.stacked_of_ne_nil {a b : Text} (ha : a ≠ []) (hb : b ≠ []) :
    a.stacked b = a ++ '\n' :: b := by
  rw [stacked, if_neg ha, if_neg hb]

theorem Text.stacked_nil_left (b : Text) : stacked [] b = b := if_pos rfl

theorem Text.stacked_nil_right (a : Text) : a.stacked [] = a := by
  by_cases ha : a = []
  · rw [ha, stacked_nil_left]
  · rw [stacked, if_neg ha, if_pos rfl]

theorem joinLines_append {as bs : List Text} (ha : as ≠ []) (hb : bs ≠ []) :
    Text.joinLines (as ++ bs) = Text.joinLines as ++ '\n' :: Text.joinLines bs := by
  unfold Text.joinLines
  induction as with
  | nil => exact absurd rfl ha
  | cons a as ih =>
    by_cases has : as = []
    · rw [has, List.singleton_append, List.intercalate_cons_of_ne_nil hb,
        List.intercalate_singleton, List.append_assoc, List.singleton_append]
    · have hboth : as ++ bs ≠ [] := List.append_ne_nil_of_left_ne_nil has bs
      rw [List.cons_append, List.intercalate_cons_of_ne_nil hboth,
        List.intercalate_cons_of_ne_nil has, ih has]
      simp only [List.append_assoc]

theorem Expr.itemRendering_ne_nil {e : Expr} (h : e.Valid) : e.itemRendering ≠ [] := by
  cases e with
  | number digits => exact h.1
  | string value => exact List.cons_ne_nil _ _
  | call name args => exact List.append_ne_nil_of_right_ne_nil _ (List.cons_ne_nil _ _)

namespace Program

variable {p q : Program} {a : Text}

/-- Only the empty program is rendered as nothing. -/
theorem rendering_eq_nil_iff (h : p.Valid) : p.rendering = [] ↔ p = [] := by
  constructor
  · intro hnil
    cases p with
    | nil => rfl
    | cons e es =>
      have he := Expr.itemRendering_ne_nil h.1
      rw [rendering, List.map_cons] at hnil
      by_cases hes : es.map Expr.itemRendering = []
      · rw [hes, List.intercalate_singleton] at hnil
        exact absurd hnil he
      · rw [List.intercalate_cons_of_ne_nil hes, List.append_eq_nil_iff,
          List.append_eq_nil_iff] at hnil
        exact absurd hnil.1.1 he
  · rintro rfl
    rfl

/-- **Programs in a row are rendered one beneath the other.** -/
theorem rendering_append (hp : p.Valid) (hq : q.Valid) :
    rendering (p ++ q) = p.rendering.stacked q.rendering := by
  by_cases hp' : p = []
  · rw [hp']
    exact (Text.stacked_nil_left _).symm
  by_cases hq' : q = []
  · rw [hq', List.append_nil]
    exact (Text.stacked_nil_right _).symm
  have hps : p.map Expr.itemRendering ≠ [] := mt List.map_eq_nil_iff.mp hp'
  have hqs : q.map Expr.itemRendering ≠ [] := mt List.map_eq_nil_iff.mp hq'
  rw [Text.stacked_of_ne_nil (mt (rendering_eq_nil_iff hp).mp hp')
    (mt (rendering_eq_nil_iff hq).mp hq'), rendering, List.map_append]
  exact joinLines_append hps hqs

/-! ## Where a text can end -/

theorem IsSource.lexemes_valid (h : p.IsSource a) : ∀ l ∈ p.lexemes, l.Valid :=
  p.valid_iff.mp h.valid

/-- A source does not end in a letter, since no program ends in a name. -/
theorem IsSource.not_isAlpha_getLast (h : p.IsSource a) : ∀ c ∈ a.getLast?, c.isAlpha = false := by
  intro c hc
  rw [Bool.eq_false_iff]
  intro ha
  rcases h.layout.getLast_cases h.lexemes_valid c hc with hb | ⟨l, hl, hlc⟩
  · rw [not_isBlank_of_run (.inr ha)] at hb
    cases hb
  · have hkind := Expr.getLast?_listLexemes_kind p l hl
    have htakes := l.runsOn_getLast (h.lexemes_valid l (List.mem_of_getLast? hl)) c c hlc
    simp only [runsOn, ha, not_isDigit_of_isAlpha ha, Bool.and_self, Bool.or_true] at htakes
    -- the lexeme goes on with a letter, so it is a name
    obtain ⟨kind, value⟩ := l
    cases kind with
    | name => exact hkind rfl
    | number =>
      rw [Token.Kind.takes, not_isDigit_of_isAlpha ha] at htakes
      cases htakes
    | _ => cases htakes

/-- **A source stands apart from what follows** if the two do not meet in a number. -/
theorem IsSource.apart {b : Text} (h : p.IsSource a)
    (hab : ∀ c ∈ a.getLast?, ∀ d ∈ b.head?, ¬ (c.isDigit = true ∧ d.isDigit = true)) :
    a.Apart b := by
  intro c hc d hd
  have hdigits := hab c hc d hd
  rw [runsOn, h.not_isAlpha_getLast c hc, Bool.false_and, Bool.or_false, Bool.eq_false_iff, ne_eq,
    Bool.and_eq_true]
  exact hdigits

end Program

/-! ## Compiling -/

/-- Only blanks compile to nothing. -/
theorem compile_eq_nil_iff {s : Text} : compile s = .ok [] ↔ Text.Blank s := by
  constructor
  · intro h
    obtain ⟨ts, p, hts, hp, hnil⟩ := compile_eq_ok_iff.mp h
    have hsrc := Program.isSource_iff.mpr ⟨ts, hts, hp⟩
    obtain rfl := (Program.rendering_eq_nil_iff hsrc.valid).mp hnil
    cases hsrc.layout with
    | nil hg => exact hg
  · intro h
    obtain ⟨ts, hts, hnil⟩ := Text.Spells.blank h
    obtain rfl := List.map_eq_nil_iff.mp hnil
    exact compile_eq_ok_iff.mpr ⟨[], [], hts, rfl, rfl⟩

/-- **Texts in a row are compiled one after the other**, where the first compiles and the two do not
meet in a number. The outputs stand one beneath the other, and only blanks have an empty output. A
fault of the second text is found at a later offset, and is the same in all else. -/
theorem compile_append {a b x : Text} (ha : compile a = .ok x)
    (hab : ∀ c ∈ a.getLast?, ∀ d ∈ b.head?, ¬ (c.isDigit = true ∧ d.isDigit = true)) :
    (∀ y, compile b = .ok y → compile (a ++ b) = .ok (x.stacked y)) ∧
    (∀ f, compile b = .error f →
      compile (a ++ b) = .error (f.shift a.length) ∧
      (f.shift a.length).message = f.message ∧ (f.shift a.length).hint = f.hint ∧
      (f.shift a.length).position = f.position.map (· + (a.length : Int))) ∧
    ∀ s, compile s = .ok [] ↔ Text.Blank s := by
  obtain ⟨ts, p, hts, hp, rfl⟩ := compile_eq_ok_iff.mp ha
  have hsrc := Program.isSource_iff.mpr ⟨ts, hts, hp⟩
  have hscan := scan_append hts (hsrc.apart hab)
  -- what the tokens of both come to
  have hparse : ∀ us, parse (ts ++ us.map (Token.shift a.length)) =
      ((parse us).mapError (Fault.shift a.length)).map (p ++ ·) := fun us => by
    rw [parse, parseWithin_append hp, parseWithin_shift, parse]
  refine ⟨fun y hy => ?_, fun f hf => ⟨?_, Fault.message_moved (Token.lexeme_shift _) f,
    Fault.hint_moved f, Fault.position_shift _ f⟩, fun s => compile_eq_nil_iff⟩
  · obtain ⟨us, q, hus, hq, rfl⟩ := compile_eq_ok_iff.mp hy
    have hq' := Program.isSource_iff.mpr ⟨us, hus, hq⟩
    rw [hus] at hscan
    refine compile_eq_ok_iff.mpr ⟨_, p ++ q, hscan, ?_,
      Program.rendering_append hsrc.valid hq'.valid⟩
    rw [hparse, hq]
    rfl
  · rcases compile_eq_error_iff.mp hf with h | ⟨us, hus, h⟩
    · rw [h] at hscan
      exact compile_eq_error_iff.mpr (.inl hscan)
    · rw [hus] at hscan
      refine compile_eq_error_iff.mpr (.inr ⟨_, hscan, ?_⟩)
      rw [hparse, h]
      rfl

/-- A name may follow a number at once, and is refused where it stands. -/
theorem compile_append_glued :
    compile "(f 1)\n23".toList = .ok "f(1);\n23".toList ∧
      compile "(g)4".toList = .ok "g();\n4".toList ∧
      compile ("(f 1)\n23".toList ++ "(g)4".toList) = .ok "f(1);\n23\ng();\n4".toList ∧
      compile "x \"y\"".toList =
        .error (.unexpectedToken ⟨.name, "x".toList, 0⟩ (some expressionExpected)) ∧
      compile ("(f 1)\n23".toList ++ "x \"y\"".toList) =
        .error (.unexpectedToken ⟨.name, "x".toList, 8⟩ (some expressionExpected)) := by
  have ha : compile "(f 1)\n23".toList = .ok "f(1);\n23".toList := by decide +kernel
  have hb : compile "(g)4".toList = .ok "g();\n4".toList := by decide +kernel
  have hc : compile "x \"y\"".toList =
      .error (.unexpectedToken ⟨.name, "x".toList, 0⟩ (some expressionExpected)) := by
    decide +kernel
  exact ⟨ha, hb, (compile_append ha (by rintro c - d ⟨⟩ ⟨-, ⟨⟩⟩)).1 _ hb, hc,
    ((compile_append ha (by rintro c - d ⟨⟩ ⟨-, ⟨⟩⟩)).2.1 _ hc).1⟩

end CallNotation
