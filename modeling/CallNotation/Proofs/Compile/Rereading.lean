import CallNotation.Proofs.Compile.Language

/-!
# Reading the output again

Without the commas and semicolons that stand outside its strings, the output of a compilation is
itself a text of lexemes: those of the source, but with each callee in front of its parenthesis.

* `Text.withoutMarks` goes through a text with one bit, whether it is within a string. Where a text
  is `Closed`, nothing of that bit is left behind, so its parts can be looked at one by one.
* `Lexeme.calleesFirst` is what becomes of the lexemes, and `Lexeme.parensFirst` takes it back.

Result:
* **`compile_rereads`**: nothing is lost, invented or moved, so the output determines the lexemes of
  the source.
-/

namespace CallNotation

/-! ## Commas and semicolons outside strings -/

namespace Text

/-- The text without the commas and semicolons outside its strings, where `quoted` tells whether it
begins within a string. -/
def withoutMarksFrom : Bool → Text → Text
  | _, [] => []
  | quoted, c :: t =>
    if c = '"' then c :: withoutMarksFrom (!quoted) t
    else if quoted = false ∧ (c = ',' ∨ c = ';') then withoutMarksFrom quoted t
    else c :: withoutMarksFrom quoted t

/-- The text without the commas and semicolons outside its strings. -/
def withoutMarks (t : Text) : Text :=
  withoutMarksFrom false t

/-- What follows the text is not within a string. -/
def Closed (a : Text) : Prop :=
  ∀ b : Text, (a ++ b).withoutMarks = a.withoutMarks ++ b.withoutMarks

theorem Closed.append {a b : Text} (ha : a.Closed) (hb : b.Closed) : (a ++ b).Closed := by
  intro c
  rw [List.append_assoc, ha, hb, ha, List.append_assoc]

theorem closed_nil : Closed [] := fun _ => rfl

theorem withoutMarks_cons {c : Char} (h : c ∉ ['"', ',', ';']) (t : Text) :
    withoutMarks (c :: t) = c :: t.withoutMarks := by
  simp only [List.mem_cons, List.not_mem_nil, or_false, not_or] at h
  rw [withoutMarks, withoutMarksFrom, if_neg h.1, if_neg (by simp [h.2])]
  rfl

/-- Runs of digits and letters hold neither marks nor quotes. -/
theorem withoutMarks_run {w : Text} (hw : ∀ c ∈ w, c.isDigit = true ∨ c.isAlpha = true) (t : Text) :
    (w ++ t).withoutMarks = w ++ t.withoutMarks := by
  induction w with
  | nil => rfl
  | cons c w ih =>
    obtain ⟨hc, hw⟩ := List.forall_mem_cons.mp hw
    have hmark : c ∉ ['"', ',', ';'] := by
      intro hm
      simp only [List.mem_cons, List.not_mem_nil, or_false] at hm
      rcases hm with rfl | rfl | rfl <;> exact absurd hc (by decide)
    rw [List.cons_append, withoutMarks_cons hmark, ih hw, List.cons_append]

/-- Within a string everything stays as it is, up to the closing quote. -/
theorem withoutMarksFrom_true {value : Text} (h : '"' ∉ value) (t : Text) :
    withoutMarksFrom true (value ++ '"' :: t) = value ++ '"' :: t.withoutMarks := by
  induction value with
  | nil => rfl
  | cons c value ih =>
    have hc : c ≠ '"' := (List.ne_of_not_mem_cons h).symm
    rw [List.cons_append, withoutMarksFrom, if_neg hc, if_neg (by simp),
      ih (List.not_mem_of_not_mem_cons h)]
    rfl

theorem withoutMarks_string {value : Text} (h : '"' ∉ value) (t : Text) :
    withoutMarks ('"' :: value ++ ['"'] ++ t) = '"' :: value ++ ['"'] ++ t.withoutMarks := by
  simp only [List.cons_append, List.append_assoc, List.nil_append]
  rw [withoutMarks, withoutMarksFrom, if_pos rfl, Bool.not_false, withoutMarksFrom_true h]

/-- **The characters of a lexeme stay as they are.** -/
theorem withoutMarks_text {l : Lexeme} (hv : l.Valid) (t : Text) :
    withoutMarks (l.text ++ t) = l.text ++ t.withoutMarks := by
  obtain ⟨kind, value⟩ := l
  cases kind with
  | lparen =>
    obtain rfl : value = ['('] := hv
    exact withoutMarks_cons (by decide) t
  | rparen =>
    obtain rfl : value = [')'] := hv
    exact withoutMarks_cons (by decide) t
  | number => exact withoutMarks_run (fun c hc => .inl (hv.2 c hc)) t
  | string => exact withoutMarks_string hv t
  | name => exact withoutMarks_run (fun c hc => .inr (hv.2 c hc)) t

end Text

/-! ## Callees in front of their parentheses -/

namespace Lexeme

/-- The lexemes with each pair of an opening parenthesis and a name turned round. -/
def calleesFirst : List Lexeme → List Lexeme
  | ⟨.lparen, value⟩ :: ⟨.name, letters⟩ :: ls =>
    ⟨.name, letters⟩ :: ⟨.lparen, value⟩ :: calleesFirst ls
  | l :: ls => l :: calleesFirst ls
  | [] => []

/-- The lexemes with each pair of a name and an opening parenthesis turned round. -/
def parensFirst : List Lexeme → List Lexeme
  | ⟨.name, letters⟩ :: ⟨.lparen, value⟩ :: ls =>
    ⟨.lparen, value⟩ :: ⟨.name, letters⟩ :: parensFirst ls
  | l :: ls => l :: parensFirst ls
  | [] => []

theorem calleesFirst_call (letters : Text) (ls : List Lexeme) :
    calleesFirst (.lparen :: .name letters :: ls) =
      .name letters :: .lparen :: calleesFirst ls := rfl

theorem calleesFirst_rparen (ls : List Lexeme) :
    calleesFirst (.rparen :: ls) = .rparen :: calleesFirst ls := rfl

theorem parensFirst_call (letters : Text) (ls : List Lexeme) :
    parensFirst (.name letters :: .lparen :: ls) =
      .lparen :: .name letters :: parensFirst ls := rfl

theorem parensFirst_rparen (ls : List Lexeme) :
    parensFirst (.rparen :: ls) = .rparen :: parensFirst ls := rfl

end Lexeme

namespace Expr

open Lexeme (calleesFirst parensFirst)

mutual

/-- The lexemes of an expression, each callee in front of its parenthesis. -/
def calleeLexemes : Expr → List Lexeme
  | number digits => [.number digits]
  | string value => [.string value]
  | call name args => .name name :: .lparen :: (listCalleeLexemes args ++ [.rparen])

/-- The same of expressions in a row. -/
def listCalleeLexemes : List Expr → List Lexeme
  | [] => []
  | e :: es => e.calleeLexemes ++ listCalleeLexemes es

end

mutual

theorem calleesFirst_lexemes : ∀ (e : Expr) (ls : List Lexeme),
    calleesFirst (e.lexemes ++ ls) = e.calleeLexemes ++ calleesFirst ls
  | number _, _ => rfl
  | string _, _ => rfl
  | call name args, ls => by
    rw [lexemes, calleeLexemes, List.cons_append, List.cons_append, List.append_assoc,
      Lexeme.calleesFirst_call, calleesFirst_listLexemes args, List.singleton_append,
      Lexeme.calleesFirst_rparen]
    simp only [List.cons_append, List.append_assoc, List.nil_append]

theorem calleesFirst_listLexemes : ∀ (es : List Expr) (ls : List Lexeme),
    calleesFirst (listLexemes es ++ ls) = listCalleeLexemes es ++ calleesFirst ls
  | [], _ => rfl
  | e :: es, ls => by
    rw [listLexemes, listCalleeLexemes, List.append_assoc, calleesFirst_lexemes,
      calleesFirst_listLexemes es ls, List.append_assoc]

end

mutual

theorem parensFirst_calleeLexemes : ∀ (e : Expr) (ls : List Lexeme),
    parensFirst (e.calleeLexemes ++ ls) = e.lexemes ++ parensFirst ls
  | number _, _ => rfl
  | string _, _ => rfl
  | call name args, ls => by
    rw [lexemes, calleeLexemes, List.cons_append, List.cons_append, List.append_assoc,
      Lexeme.parensFirst_call, parensFirst_listCalleeLexemes args, List.singleton_append,
      Lexeme.parensFirst_rparen]
    simp only [List.cons_append, List.append_assoc, List.nil_append]

theorem parensFirst_listCalleeLexemes : ∀ (es : List Expr) (ls : List Lexeme),
    parensFirst (listCalleeLexemes es ++ ls) = listLexemes es ++ parensFirst ls
  | [], _ => rfl
  | e :: es, ls => by
    rw [listLexemes, listCalleeLexemes, List.append_assoc, parensFirst_calleeLexemes,
      parensFirst_listCalleeLexemes es ls, List.append_assoc]

end

end Expr

/-! ## Reading a rendering -/

/-- A text that ends outside of strings and, without its marks, spells the lexemes. -/
structure Text.Rereads (t : Text) (ls : List Lexeme) : Prop where
  /-- Nothing is left open. -/
  closed : t.Closed
  /-- What is read. -/
  spells : t.withoutMarks.Spells ls

namespace Text

variable {a b sep : Text} {ls ms : List Lexeme}

theorem Rereads.append (ha : a.Rereads ls) (hb : b.Rereads ms)
    (hab : a.withoutMarks.Apart b.withoutMarks) : (a ++ b).Rereads (ls ++ ms) := by
  refine ⟨ha.closed.append hb.closed, ?_⟩
  rw [ha.closed]
  exact ha.spells.append hb.spells hab

theorem rereads_text {l : Lexeme} (hv : l.Valid) : l.text.Rereads [l] := by
  have h := withoutMarks_text hv []
  rw [List.append_nil, show withoutMarks [] = [] from rfl, List.append_nil] at h
  refine ⟨fun t => ?_, ?_⟩
  · rw [withoutMarks_text hv, h]
  · rw [h]
    exact .lexeme hv

/-- What stands between two parts of a rendering leaves a blank behind. -/
structure Separates (sep : Text) : Prop where
  /-- No string is opened. -/
  closed : sep.Closed
  /-- Only blanks are left. -/
  blank : Text.Blank sep.withoutMarks
  /-- Some blank is left. -/
  ne_nil : sep.withoutMarks ≠ []

theorem Separates.rereads_append (h : sep.Separates) (ha : a.Rereads ls) (hb : b.Rereads ms) :
    (a ++ sep ++ b).Rereads (ls ++ ms) := by
  have hsep : sep.Rereads [] := ⟨h.closed, .blank h.blank⟩
  have has : (a ++ sep).Rereads ls := by
    have := ha.append hsep (apart_of_blank_right _ h.blank)
    rwa [List.append_nil] at this
  refine has.append hb ?_
  rw [ha.closed, apart_append_left h.ne_nil]
  exact apart_of_blank_left h.blank _

/-- Parts in a row are read one after the other. -/
theorem Separates.rereads_intercalate (h : sep.Separates) {f : Expr → Text} :
    ∀ es : List Expr, (∀ e ∈ es, (f e).Rereads e.calleeLexemes) →
      Rereads (List.intercalate sep (es.map f)) (Expr.listCalleeLexemes es)
  | [], _ => ⟨closed_nil, .blank fun _ hc => absurd hc List.not_mem_nil⟩
  | [e], hes => by
    rw [List.map_cons, List.map_nil, List.intercalate_singleton, Expr.listCalleeLexemes,
      Expr.listCalleeLexemes, List.append_nil]
    exact hes e List.mem_cons_self
  | e :: e' :: es, hes => by
    have hrest := h.rereads_intercalate (e' :: es) fun x hx => hes x (List.mem_cons_of_mem e hx)
    rw [List.map_cons, List.map_cons, List.intercalate_cons_cons, Expr.listCalleeLexemes]
    exact h.rereads_append (hes e List.mem_cons_self) hrest

theorem separates_comma : Separates [',', ' '] :=
  ⟨fun _ => rfl, by decide, List.cons_ne_nil _ _⟩

theorem separates_newline : Separates ['\n'] :=
  ⟨fun _ => rfl, by decide, List.cons_ne_nil _ _⟩

end Text

namespace Expr

mutual

/-- **The rendering of a valid expression is read as its lexemes**, callees first. -/
theorem rereads_rendering : ∀ e : Expr, e.Valid → e.rendering.Rereads e.calleeLexemes
  | number digits, h => Text.rereads_text (l := .number digits) h
  | string value, h => Text.rereads_text (l := .string value) h
  | call name args, h => by
    have hargs := Text.separates_comma.rereads_intercalate args (rereads_renderings args h.2)
    have hclose := hargs.append (Text.rereads_text (l := .rparen) rfl)
      (Text.apart_cons rfl rfl _ [])
    have hopen := (Text.rereads_text (l := .lparen) rfl).append hclose (by
      rintro c ⟨⟩ d _
      rfl)
    have hname := (Text.rereads_text (l := .name name) h.1).append hopen (by
      rw [Text.withoutMarks_text (l := .lparen) rfl]
      exact Text.apart_cons rfl rfl _ _)
    have hshape : (call name args).rendering = (Lexeme.name name).text ++ (Lexeme.lparen.text ++
        (List.intercalate [',', ' '] (args.map rendering) ++ Lexeme.rparen.text)) := by
      rw [rendering, renderings_eq_map, List.append_assoc]
      rfl
    rw [hshape]
    exact hname

theorem rereads_renderings : ∀ es : List Expr, AllValid es →
    ∀ e ∈ es, e.rendering.Rereads e.calleeLexemes
  | [], _ => fun _ he => absurd he List.not_mem_nil
  | e :: es, h =>
    List.forall_mem_cons.mpr ⟨rereads_rendering e h.1, rereads_renderings es h.2⟩

end

/-- The semicolon behind a call at the top level leaves nothing behind. -/
theorem rereads_itemRendering {e : Expr} (h : e.Valid) :
    e.itemRendering.Rereads e.calleeLexemes := by
  cases e with
  | number digits => exact rereads_rendering _ h
  | string value => exact rereads_rendering _ h
  | call name args =>
    have hmark : Text.Rereads [';'] [] :=
      ⟨fun _ => rfl, .blank fun _ hc => absurd hc List.not_mem_nil⟩
    have happend := (rereads_rendering _ h).append hmark (Text.apart_nil_right _)
    rwa [List.append_nil] at happend

end Expr

theorem Program.rereads_rendering {p : Program} (h : p.Valid) :
    p.rendering.Rereads (Lexeme.calleesFirst p.lexemes) := by
  have hcallees := Expr.calleesFirst_listLexemes p []
  rw [List.append_nil, show Lexeme.calleesFirst [] = [] from rfl, List.append_nil] at hcallees
  rw [lexemes, hcallees]
  exact Text.separates_newline.rereads_intercalate p fun e he =>
    Expr.rereads_itemRendering (Expr.AllValid.forall_mem h e he)

theorem Program.parensFirst_calleesFirst (p : Program) :
    Lexeme.parensFirst (Lexeme.calleesFirst p.lexemes) = p.lexemes := by
  have hcallees := Expr.calleesFirst_listLexemes p []
  have hparens := Expr.parensFirst_listCalleeLexemes p []
  rw [List.append_nil, show Lexeme.calleesFirst [] = [] from rfl, List.append_nil] at hcallees
  rw [List.append_nil, show Lexeme.parensFirst [] = [] from rfl, List.append_nil] at hparens
  rw [lexemes, hcallees, hparens]

/-- **The output loses, invents and moves nothing.** Without the commas and semicolons outside its
strings it is read as the lexemes of the source, each callee in front of its parenthesis. So all
sources with this output have the same lexemes. -/
theorem compile_rereads {source output : Text} (h : compile source = .ok output) :
    ∃ ts us, scan source = .ok ts ∧ scan output.withoutMarks = .ok us ∧
      us.map Token.lexeme = Lexeme.calleesFirst (ts.map Token.lexeme) ∧
      ∀ source', compile source' = .ok output →
        ∃ ts', scan source' = .ok ts' ∧ ts'.map Token.lexeme = ts.map Token.lexeme := by
  -- what the output is read as, for any source of it
  have key : ∀ {s : Text}, compile s = .ok output → ∃ ts, scan s = .ok ts ∧
      output.withoutMarks.Spells (Lexeme.calleesFirst (ts.map Token.lexeme)) ∧
      Lexeme.parensFirst (Lexeme.calleesFirst (ts.map Token.lexeme)) = ts.map Token.lexeme := by
    intro s hs
    obtain ⟨ts, p, hts, hp, rfl⟩ := compile_eq_ok_iff.mp hs
    have hv : p.Valid := (Program.isSource_iff.mpr ⟨ts, hts, hp⟩).valid
    obtain ⟨hlex, -⟩ := (parse_eq_ok_iff_of_scan hts).mp hp
    exact ⟨ts, hts, hlex ▸ (Program.rereads_rendering hv).spells,
      hlex ▸ p.parensFirst_calleesFirst⟩
  obtain ⟨ts, hts, hspells, hback⟩ := key h
  obtain ⟨us, hus, hlex⟩ := id hspells
  refine ⟨ts, us, hts, hus, hlex, fun source' h' => ?_⟩
  obtain ⟨ts', hts', hspells', hback'⟩ := key h'
  refine ⟨ts', hts', ?_⟩
  rw [← hback', hspells'.unique hspells, hback]

/-- Commas, semicolons and parentheses in a string stay; those of the rendering go. -/
theorem compile_rereads_nested :
    compile "(f\"a,b;(\" (g 1 2))3".toList = .ok "f(\"a,b;(\", g(1, 2));\n3".toList ∧
      ∃ ts us, scan "(f\"a,b;(\" (g 1 2))3".toList = .ok ts ∧
        scan (Text.withoutMarks "f(\"a,b;(\", g(1, 2));\n3".toList) = .ok us ∧
        us.map Token.lexeme = Lexeme.calleesFirst (ts.map Token.lexeme) ∧
        ∀ source', compile source' = .ok "f(\"a,b;(\", g(1, 2));\n3".toList →
          ∃ ts', scan source' = .ok ts' ∧ ts'.map Token.lexeme = ts.map Token.lexeme :=
  ⟨by decide +kernel, compile_rereads (by decide +kernel)⟩

end CallNotation
