import CallNotation.Expr.Basic
import CallNotation.Proofs.Token.Lexeme
import Mathlib.Data.List.Chain

/-!
# Expressions as lexemes

`Program.lexemes` writes a program out as a list of lexemes: literals stand for themselves, and a
call is a parenthesis, its name, its arguments and a parenthesis. `Program.Valid` says that names
and literals are of the language, and `Program.Within` that no call stands deeper than a limit,
where a call at the top level is at level 1.

Results:
* `Program.valid_iff`: a program is valid iff all its lexemes are.
* `Program.isChain_lexemes`: no name of a program follows a name.
-/

namespace CallNotation

namespace Lexeme

/-- An opening parenthesis. -/
def lparen : Lexeme := ⟨.lparen, ['(']⟩

/-- A closing parenthesis. -/
def rparen : Lexeme := ⟨.rparen, [')']⟩

/-- A number. -/
def number (digits : Text) : Lexeme := ⟨.number, digits⟩

/-- A string. -/
def string (value : Text) : Lexeme := ⟨.string, value⟩

/-- A name. -/
def name (letters : Text) : Lexeme := ⟨.name, letters⟩

end Lexeme

/-- The lexeme that a token stands for in a program, where the value of a parenthesis says
nothing. -/
def Token.plain : Token → Lexeme
  | ⟨.lparen, _, _⟩ => .lparen
  | ⟨.rparen, _, _⟩ => .rparen
  | t => t.lexeme

theorem Token.plain_of_valid {t : Token} (h : t.lexeme.Valid) : t.plain = t.lexeme := by
  obtain ⟨kind, value, position⟩ := t
  cases kind with
  | lparen =>
    obtain rfl : value = ['('] := h
    rfl
  | rparen =>
    obtain rfl : value = [')'] := h
    rfl
  | number => rfl
  | string => rfl
  | name => rfl

theorem Token.plain_token_plain (t : Token) : (t.plain.token 0).plain = t.plain := by
  obtain ⟨kind, value, position⟩ := t
  cases kind <;> rfl

/-- Valid lexemes are the plain form of their tokens. -/
theorem Lexeme.map_plain_token {ls : List Lexeme} (hv : ∀ l ∈ ls, l.Valid) :
    (ls.map (·.token 0)).map Token.plain = ls := by
  induction ls with
  | nil => rfl
  | cons l ls ih =>
    obtain ⟨hl, hls⟩ := List.forall_mem_cons.mp hv
    have hplain : (l.token 0).plain = l := Token.plain_of_valid hl
    rw [List.map_cons, List.map_cons, ih hls, hplain]

namespace Expr

mutual

/-- The lexemes of an expression. -/
def lexemes : Expr → List Lexeme
  | number digits => [.number digits]
  | string value => [.string value]
  | call name args => .lparen :: .name name :: (listLexemes args ++ [.rparen])

/-- The lexemes of expressions in a row. -/
def listLexemes : List Expr → List Lexeme
  | [] => []
  | e :: es => e.lexemes ++ listLexemes es

end

mutual

/-- Names are runs of letters, numbers runs of digits, and no string holds a double quote. -/
def Valid : Expr → Prop
  | number digits => digits ≠ [] ∧ ∀ c ∈ digits, c.isDigit = true
  | string value => '"' ∉ value
  | call name args => (name ≠ [] ∧ ∀ c ∈ name, c.isAlpha = true) ∧ AllValid args

/-- All the expressions are valid. -/
def AllValid : List Expr → Prop
  | [] => True
  | e :: es => e.Valid ∧ AllValid es

end

mutual

/-- Below a call at level `level`, no call stands at a level above `limit`. -/
def Within (limit : Int) (level : Nat) : Expr → Prop
  | number _ => True
  | string _ => True
  | call _ args => level + 1 ≤ limit ∧ AllWithin limit (level + 1) args

/-- The same of all the expressions. -/
def AllWithin (limit : Int) (level : Nat) : List Expr → Prop
  | [] => True
  | e :: es => Within limit level e ∧ AllWithin limit level es

end

theorem listLexemes_append : ∀ es es' : List Expr,
    listLexemes (es ++ es') = listLexemes es ++ listLexemes es'
  | [], _ => rfl
  | e :: es, es' => by
    rw [List.cons_append, listLexemes, listLexemes, listLexemes_append es es', List.append_assoc]

theorem allWithin_append (limit : Int) (level : Nat) : ∀ es es' : List Expr,
    AllWithin limit level (es ++ es') ↔ AllWithin limit level es ∧ AllWithin limit level es'
  | [], _ => by rw [List.nil_append, AllWithin, true_and]
  | e :: es, es' => by
    rw [List.cons_append, AllWithin, AllWithin, allWithin_append limit level es es', and_assoc]

theorem AllValid.forall_mem : ∀ {es : List Expr}, AllValid es → ∀ e ∈ es, e.Valid
  | [], _ => fun _ he => absurd he List.not_mem_nil
  | _ :: _, h => List.forall_mem_cons.mpr ⟨h.1, h.2.forall_mem⟩

mutual

theorem valid_iff : ∀ e : Expr, e.Valid ↔ ∀ l ∈ e.lexemes, l.Valid
  | number digits => by simp [Valid, lexemes, Lexeme.number, Lexeme.Valid]
  | string value => by simp [Valid, lexemes, Lexeme.string, Lexeme.Valid]
  | call name args => by
    simp [Valid, lexemes, Lexeme.lparen, Lexeme.rparen, Lexeme.name, Lexeme.Valid,
      allValid_iff args, or_imp, forall_and]

theorem allValid_iff : ∀ es : List Expr, AllValid es ↔ ∀ l ∈ listLexemes es, l.Valid
  | [] => by simp [AllValid, listLexemes]
  | e :: es => by
    rw [AllValid, listLexemes, List.forall_mem_append, valid_iff e, allValid_iff es]

end

theorem getLast?_lexemes_kind (e : Expr) : ∃ l, e.lexemes.getLast? = some l ∧ l.kind ≠ .name := by
  cases e with
  | number digits => exact ⟨_, rfl, by rintro ⟨⟩⟩
  | string value => exact ⟨_, rfl, by rintro ⟨⟩⟩
  | call name args =>
    refine ⟨.rparen, ?_, by rintro ⟨⟩⟩
    rw [lexemes, ← List.cons_append, ← List.cons_append, List.getLast?_concat]

/-- Expressions in a row do not end in a name. -/
theorem getLast?_listLexemes_kind : ∀ es : List Expr,
    ∀ l ∈ (listLexemes es).getLast?, l.kind ≠ .name
  | [] => by rintro l ⟨⟩
  | e :: es => by
    intro l hl
    rw [listLexemes, List.getLast?_append] at hl
    cases hes : (listLexemes es).getLast? with
    | none =>
      obtain ⟨m, hm, hkind⟩ := e.getLast?_lexemes_kind
      rw [hes, Option.none_or, hm] at hl
      cases hl
      exact hkind
    | some m =>
      rw [hes, Option.some_or] at hl
      cases hl
      exact getLast?_listLexemes_kind es _ hes

/-- A lexeme in front of another, of which one is not a name. -/
def NotNames (l m : Lexeme) : Prop :=
  l.kind = .name → m.kind ≠ .name

mutual

/-- Expressions begin and end with something else than a name, and in a call the name is followed
by an argument or a parenthesis. -/
theorem isChain_lexemes : ∀ (e : Expr) (ls : List Lexeme), ls.IsChain NotNames →
    (∀ m ∈ ls.head?, m.kind ≠ .name) →
      (e.lexemes ++ ls).IsChain NotNames ∧ ∀ m ∈ (e.lexemes ++ ls).head?, m.kind ≠ .name
  | number digits, ls, hls, _ => by
    refine ⟨hls.cons fun m _ h => ?_, ?_⟩
    · cases h
    · rintro m ⟨⟩ h
      cases h
  | string value, ls, hls, _ => by
    refine ⟨hls.cons fun m _ h => ?_, ?_⟩
    · cases h
    · rintro m ⟨⟩ h
      cases h
  | call name args, ls, hls, hhead => by
    have hparen : (Lexeme.rparen :: ls).IsChain NotNames := hls.cons fun m _ h => by cases h
    have hargs := isChain_listLexemes args (.rparen :: ls) hparen (by rintro m ⟨⟩ h; cases h)
    rw [lexemes, List.cons_append, List.cons_append, List.append_assoc]
    refine ⟨(hargs.1.cons fun m hm _ => hargs.2 m hm).cons ?_, ?_⟩
    · rintro m ⟨⟩ h
      cases h
    · rintro m ⟨⟩ h
      cases h

theorem isChain_listLexemes : ∀ (es : List Expr) (ls : List Lexeme), ls.IsChain NotNames →
    (∀ m ∈ ls.head?, m.kind ≠ .name) →
      (listLexemes es ++ ls).IsChain NotNames ∧
        ∀ m ∈ (listLexemes es ++ ls).head?, m.kind ≠ .name
  | [], ls, hls, hhead => ⟨hls, hhead⟩
  | e :: es, ls, hls, hhead => by
    obtain ⟨hes, hes'⟩ := isChain_listLexemes es ls hls hhead
    rw [listLexemes, List.append_assoc]
    exact isChain_lexemes e _ hes hes'

end

end Expr

namespace Program

/-- The lexemes of a program. -/
def lexemes (p : Program) : List Lexeme := Expr.listLexemes p

/-- All names and literals of the program are of the language. -/
def Valid (p : Program) : Prop := Expr.AllValid p

/-- No call of the program stands at a level above `limit`. -/
def Within (limit : Int) (p : Program) : Prop := Expr.AllWithin limit 0 p

theorem valid_iff (p : Program) : p.Valid ↔ ∀ l ∈ p.lexemes, l.Valid :=
  Expr.allValid_iff p

/-- No name of a program follows a name. -/
theorem isChain_lexemes (p : Program) : p.lexemes.IsChain Expr.NotNames := by
  have h := (Expr.isChain_listLexemes p [] .nil (by rintro m ⟨⟩)).1
  rwa [List.append_nil] at h

end Program

end CallNotation
