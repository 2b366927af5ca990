import CallNotation.Proofs.Expr.Partial

/-!
# The grammar of programs

A list of tokens is a program iff it is the program's lexemes in order and no call of the program
stands above the limit.

* Nothing is lost: `Partial.lexemes` is what has been read, and each token adds its lexeme to it
  (`Takes.lexemes`); a call is opened below the limit or not at all (`Takes.within`).
* Nothing is refused without need: from any point, the lexemes of an expression lead to the same
  point with the expression added (`advance_expr`).

Result:
* **`parseWithin_eq_ok_iff`**: the two together.
-/

namespace CallNotation

namespace Partial

variable {limit : Int} {base : Nat}

/-! ## What has been read -/

/-- The lexemes in front of the innermost open list. -/
def framesLexemes : List Frame → List Lexeme
  | [] => []
  | f :: fs => framesLexemes fs ++ (Expr.listLexemes f.before ++ [.lparen, .name f.name])

/-- The lexemes that have been read. -/
def lexemes : Partial → List Lexeme
  | items fs es => framesLexemes fs ++ Expr.listLexemes es
  | callee fs es => framesLexemes fs ++ (Expr.listLexemes es ++ [.lparen])

/-- Each token that is taken adds its lexeme. -/
theorem Takes.lexemes {st st' : Partial} {t : Token} (h : Takes limit base st t st') :
    st'.lexemes = st.lexemes ++ [t.plain] := by
  cases h with
  | number =>
    rw [Partial.lexemes, Partial.lexemes, Expr.listLexemes_append, List.append_assoc]
    rfl
  | string =>
    rw [Partial.lexemes, Partial.lexemes, Expr.listLexemes_append, List.append_assoc]
    rfl
  | lparen h =>
    rw [Partial.lexemes, Partial.lexemes, List.append_assoc]
    rfl
  | name =>
    rw [Partial.lexemes, Partial.lexemes, framesLexemes, Expr.listLexemes, List.append_nil,
      List.append_assoc, List.append_assoc]
    rfl
  | rparen =>
    rw [Partial.lexemes, Partial.lexemes, framesLexemes, Expr.listLexemes_append,
      Expr.listLexemes, Expr.listLexemes, Expr.lexemes]
    simp only [List.append_assoc, List.cons_append, List.nil_append, List.append_nil]
    rfl

theorem lexemes_advance {st st' : Partial} {ts : List Token}
    (h : st.advance limit base ts = .ok st') :
    st'.lexemes = st.lexemes ++ ts.map Token.plain := by
  induction ts generalizing st with
  | nil =>
    cases h
    rw [List.map_nil, List.append_nil]
  | cons t ts ih =>
    obtain ⟨st'', ht, hts⟩ := exists_takes h
    rw [ih hts, ht.lexemes, List.append_assoc]
    rfl

theorem finish_eq_ok_iff {st : Partial} {p : Program} : st.finish = .ok p ↔ st = items [] p := by
  cases st with
  | items fs es => cases fs <;> simp [finish]
  | callee fs es => simp [finish]

/-- A program has been read iff it is what stands in the outermost list and no call is open. -/
theorem run_eq_ok_iff {st : Partial} {ts : List Token} {p : Program} :
    st.run limit base ts = .ok p ↔ st.advance limit base ts = .ok (items [] p) := by
  rw [run]
  cases st.advance limit base ts with
  | ok st' => rw [Except.ok.injEq, finish_eq_ok_iff]
  | error f => simp

/-! ## How deep calls are -/

/-- The open calls stand below the limit, and so does what was read before each. -/
def FramesWithin (limit : Int) (base : Nat) : List Frame → Prop
  | [] => True
  | f :: fs => (base + fs.length : Nat) + 1 ≤ limit ∧
      Expr.AllWithin limit (base + fs.length) f.before ∧ FramesWithin limit base fs

/-- All calls that have been read stand below the limit. -/
def Within (limit : Int) (base : Nat) : Partial → Prop
  | items fs es => FramesWithin limit base fs ∧ Expr.AllWithin limit (base + fs.length) es
  | callee fs es => (base + fs.length : Nat) + 1 ≤ limit ∧
      Expr.AllWithin limit (base + fs.length) es ∧ FramesWithin limit base fs

/-- No token opens a call above the limit. -/
theorem Takes.within {st st' : Partial} {t : Token} (h : Takes limit base st t st')
    (hst : st.Within limit base) : st'.Within limit base := by
  cases h with
  | number => exact ⟨hst.1, (Expr.allWithin_append limit _ _ _).mpr ⟨hst.2, trivial, trivial⟩⟩
  | string => exact ⟨hst.1, (Expr.allWithin_append limit _ _ _).mpr ⟨hst.2, trivial, trivial⟩⟩
  | lparen h => exact ⟨h, hst.2, hst.1⟩
  | name => exact ⟨hst, trivial⟩
  | rparen =>
    obtain ⟨⟨hlevel, hbefore, hfs⟩, hes⟩ := hst
    exact ⟨hfs, (Expr.allWithin_append limit _ _ _).mpr ⟨hbefore, ⟨hlevel, hes⟩, trivial⟩⟩

theorem within_advance {st st' : Partial} {ts : List Token}
    (h : st.advance limit base ts = .ok st') (hst : st.Within limit base) :
    st'.Within limit base := by
  induction ts generalizing st with
  | nil =>
    cases h
    exact hst
  | cons t ts ih =>
    obtain ⟨st'', ht, hts⟩ := exists_takes h
    exact ih hts (ht.within hst)

/-! ## Reading an expression -/

mutual

/-- **From any point, the lexemes of an expression add the expression.** -/
theorem advance_expr : ∀ (e : Expr) (fs : List Frame) (es : List Expr),
    e.Within limit (base + fs.length) →
      (items fs es).advance limit base (e.lexemes.map (·.token 0)) = .ok (items fs (es ++ [e]))
  | .number digits, fs, es, _ => rfl
  | .string value, fs, es, _ => rfl
  | .call name args, fs, es, h => by
    have hargs := advance_exprs args (⟨name, es⟩ :: fs) [] h.2
    rw [Expr.lexemes, List.map_cons, List.map_cons, List.map_append]
    rw [Lexeme.lparen, Lexeme.token, advance_cons (.lparen h.1), Lexeme.name, Lexeme.token,
      advance_cons .name, advance_append hargs]
    rfl

theorem advance_exprs : ∀ (args : List Expr) (fs : List Frame) (es : List Expr),
    Expr.AllWithin limit (base + fs.length) args →
      (items fs es).advance limit base ((Expr.listLexemes args).map (·.token 0)) =
        .ok (items fs (es ++ args))
  | [], fs, es, _ => by
    rw [List.append_nil]
    rfl
  | e :: args, fs, es, h => by
    rw [Expr.listLexemes, List.map_append, advance_append (advance_expr e fs es h.1),
      advance_exprs args fs _ h.2, List.append_assoc]
    rfl

end

end Partial

open Partial in
/-- **A list of tokens is a program iff it is the program's lexemes**, in order, and no call of
the program stands above the limit. -/
theorem parseWithin_eq_ok_iff {limit : Int} {ts : List Token} {p : Program} :
    parseWithin limit ts = .ok p ↔ ts.map Token.plain = p.lexemes ∧ p.Within limit := by
  rw [parseWithin_eq_run, run_eq_ok_iff]
  constructor
  · intro h
    exact ⟨(lexemes_advance h).symm, (within_advance h ⟨trivial, trivial⟩).2⟩
  · rintro ⟨hts, hp⟩
    have hplain : (p.lexemes.map (·.token 0)).map Token.plain = ts.map Token.plain := by
      rw [← hts, List.map_map, List.map_map]
      exact List.map_congr_left fun t _ => Token.plain_token_plain t
    have hread : start.advance limit 0 (p.lexemes.map (·.token 0)) = .ok (items [] p) :=
      advance_exprs p [] [] hp
    exact advance_congr hread hplain

end CallNotation
