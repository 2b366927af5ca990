import CallNotation.Proofs.Compile.Language

/-!
# Where the characters of an output come from

An output holds the characters of the source's lexemes and the characters that are put between and
behind them. So no character that these are not can get into it other than from the source.

Result:
* **`mem_of_compile`**: each character of an output is one of the source or a mark.
-/

namespace CallNotation

/-- What a rendering puts between expressions and behind statements. -/
def renderingMarks : Text := [',', ' ', ';', '\n']

theorem mem_intercalate {sep : Text} {parts : List Text} {c : Char}
    (h : c ∈ List.intercalate sep parts) : c ∈ sep ∨ ∃ part ∈ parts, c ∈ part := by
  induction parts with
  | nil => cases h
  | cons part parts ih =>
    by_cases hnil : parts = []
    · rw [hnil, List.intercalate_singleton] at h
      exact .inr ⟨part, List.mem_cons_self, h⟩
    · rw [List.intercalate_cons_of_ne_nil hnil, List.mem_append, List.mem_append] at h
      rcases h with (h | h) | h
      · exact .inr ⟨part, List.mem_cons_self, h⟩
      · exact .inl h
      · obtain hsep | ⟨part', hmem, hc⟩ := ih h
        · exact .inl hsep
        · exact .inr ⟨part', List.mem_cons_of_mem _ hmem, hc⟩

/-- The lexemes of a layout stand in it in order. -/
theorem Layout.sublist {R : Token.Kind → Token.Kind → Prop} {k : Option Token.Kind}
    {ls : List Lexeme} {s : Text} (h : Layout R k ls s) :
    (ls.flatMap Lexeme.text).Sublist s := by
  induction h with
  | nil => exact List.nil_sublist _
  | @cons k g l ls s _ _ _ ih =>
    rw [List.flatMap_cons]
    exact (ih.append_left l.text).trans (List.sublist_append_right g _)

namespace Expr

mutual

/-- Each character of a rendering is one of a lexeme or a mark. -/
theorem mem_rendering : ∀ (e : Expr) {c : Char}, c ∈ e.rendering →
    c ∈ renderingMarks ∨ c ∈ e.lexemes.flatMap Lexeme.text
  | number digits, c, h => by
    rw [lexemes, List.flatMap_singleton]
    exact .inr h
  | string value, c, h => by
    rw [lexemes, List.flatMap_singleton]
    exact .inr h
  | call name args, c, h => by
    have hlexemes : (call name args).lexemes.flatMap Lexeme.text =
        '(' :: (name ++ ((listLexemes args).flatMap Lexeme.text ++ [')'])) := by
      simp [lexemes, Lexeme.lparen, Lexeme.name, Lexeme.rparen, Lexeme.text]
    rw [rendering, List.mem_append, List.mem_append, List.mem_cons] at h
    rw [hlexemes]
    simp only [List.mem_cons, List.mem_append]
    simp only [List.mem_singleton] at h
    rcases h with (h | rfl | h) | rfl
    · exact .inr (.inr (.inl h))
    · exact .inr (.inl rfl)
    · rcases mem_intercalate h with hsep | ⟨part, hpart, hc⟩
      · exact .inl (List.mem_append_left _ hsep)
      · rcases mem_renderings args hpart hc with hmark | hc
        · exact .inl hmark
        · exact .inr (.inr (.inr (.inl hc)))
    · exact .inr (.inr (.inr (.inr (.inl rfl))))

theorem mem_renderings : ∀ (es : List Expr) {part : Text} {c : Char}, part ∈ renderings es →
    c ∈ part → c ∈ renderingMarks ∨ c ∈ (listLexemes es).flatMap Lexeme.text
  | [], part, c, hpart, _ => nomatch hpart
  | e :: es, part, c, hpart, hc => by
    rw [listLexemes, List.flatMap_append, List.mem_append]
    rcases List.mem_cons.mp hpart with rfl | hpart
    · exact (mem_rendering e hc).imp_right .inl
    · exact (mem_renderings es hpart hc).imp_right .inr

end

theorem lexemes_subset {e : Expr} : ∀ {es : List Expr}, e ∈ es → e.lexemes ⊆ listLexemes es
  | e' :: es, h => by
    rw [listLexemes]
    rcases List.mem_cons.mp h with rfl | h
    · exact List.subset_append_left _ _
    · exact List.Subset.trans (lexemes_subset h) (List.subset_append_right _ _)

theorem mem_itemRendering (e : Expr) {c : Char} (h : c ∈ e.itemRendering) :
    c ∈ renderingMarks ∨ c ∈ e.lexemes.flatMap Lexeme.text := by
  cases e with
  | number digits => exact mem_rendering (number digits) h
  | string value => exact mem_rendering (string value) h
  | call name args =>
    rcases List.mem_append.mp h with h | h
    · exact mem_rendering (call name args) h
    · obtain rfl := List.mem_singleton.mp h
      exact .inl (by decide)

end Expr

theorem Program.mem_rendering (p : Program) {c : Char} (h : c ∈ p.rendering) :
    c ∈ renderingMarks ∨ c ∈ p.lexemes.flatMap Lexeme.text := by
  rcases mem_intercalate h with hsep | ⟨part, hpart, hc⟩
  · obtain rfl := List.mem_singleton.mp hsep
    exact .inl (by decide)
  · obtain ⟨e, he, rfl⟩ := List.mem_map.mp hpart
    refine (e.mem_itemRendering hc).imp_right fun h => ?_
    obtain ⟨l, hl, hc⟩ := List.mem_flatMap.mp h
    exact List.mem_flatMap.mpr ⟨l, Expr.lexemes_subset he hl, hc⟩

/-- **Each character of an output is one of the source or a mark.** -/
theorem mem_of_compile {source output : Text} (h : compile source = .ok output) {c : Char}
    (hc : c ∈ output) : c ∈ renderingMarks ∨ c ∈ source := by
  obtain ⟨ts, p, hts, hp, rfl⟩ := compile_eq_ok_iff.mp h
  have hlayout := (Program.isSource_iff.mpr ⟨ts, hts, hp⟩).layout
  exact (p.mem_rendering hc).imp_right fun h => hlayout.sublist.mem h

end CallNotation
