import CallNotation.Proofs.Expr.Refusal

/-!
# Programs one after the other

Behind a whole program the parser stands as at its start, but for what it has read: no call is open.
`Partial.behind p` is a point of the parser with the program `p` read in front of everything, and
the same tokens are taken and refused there. The offsets of tokens go into faults and nowhere else.

Results:
* **`parseWithin_append`**: behind the tokens of a program, tokens are read as if they were alone.
* **`parseWithin_shift`**: tokens at later offsets come to the same program, or to the same fault at
  a later offset.
-/

namespace CallNotation

namespace Partial

variable {limit : Int} {base : Nat}

/-! ## Behind a program -/

/-- The open calls and the items of the innermost list, with `p` in front of all that was read. -/
def bottomed (p : Program) : List Frame → List Expr → List Frame × List Expr
  | [], es => ([], p ++ es)
  | f :: fs, es => (⟨f.name, (bottomed p fs f.before).2⟩ :: (bottomed p fs f.before).1, es)

/-- The same point with the program `p` read in front of everything. -/
def behind (p : Program) : Partial → Partial
  | items fs es => items (bottomed p fs es).1 (bottomed p fs es).2
  | callee fs es => callee (bottomed p fs es).1 (bottomed p fs es).2

theorem length_bottomed (p : Program) (fs : List Frame) (es : List Expr) :
    (bottomed p fs es).1.length = fs.length := by
  induction fs generalizing es with
  | nil => rfl
  | cons f fs ih => rw [bottomed, List.length_cons, ih, List.length_cons]

theorem bottomed_concat (p : Program) (fs : List Frame) (es : List Expr) (e : Expr) :
    bottomed p fs (es ++ [e]) = ((bottomed p fs es).1, (bottomed p fs es).2 ++ [e]) := by
  cases fs with
  | nil => rw [bottomed, bottomed, List.append_assoc]
  | cons f fs => rfl

theorem Takes.behind {st st' : Partial} {t : Token} (h : Takes limit base st t st') (p : Program) :
    Takes limit base (st.behind p) t (st'.behind p) := by
  cases h with
  | number =>
    rw [Partial.behind, Partial.behind, bottomed_concat]
    exact .number
  | string =>
    rw [Partial.behind, Partial.behind, bottomed_concat]
    exact .string
  | @lparen fs es _ _ h => exact .lparen (by rwa [length_bottomed])
  | name => exact .name
  | rparen =>
    rw [Partial.behind, Partial.behind, bottomed_concat]
    exact .rparen

theorem Refuses.behind {st : Partial} {t : Token} {f : Fault} (h : Refuses limit base st t f)
    (p : Program) : Refuses limit base (st.behind p) t f := by
  cases h with
  | tooDeep ht h => exact .tooDeep ht (by rwa [length_bottomed])
  | unexpected ht =>
    rcases ht with ht | ⟨ht, rfl⟩
    · exact .unexpected (.inl ht)
    · exact .unexpected (.inr ⟨ht, rfl⟩)
  | noCallee ht => exact .noCallee ht

theorem finish_behind (p : Program) (st : Partial) :
    (st.behind p).finish = st.finish.map (p ++ ·) := by
  cases st with
  | items fs es => cases fs <;> rfl
  | callee fs es => rfl

/-- A program that was read before is in front of the program, and matters to nothing else. -/
theorem run_behind (p : Program) (st : Partial) (ts : List Token) :
    (st.behind p).run limit base ts = (st.run limit base ts).map (p ++ ·) := by
  induction st, ts using reading limit base with
  | done st => exact finish_behind p st
  | taken ts ht ih => rw [run_cons ht, run_cons (ht.behind p), ih]
  | refused ts hf =>
    rw [run_refused hf, run_refused (hf.behind p)]
    rfl

/-! ## At later offsets -/

theorem Refuses.shift {st : Partial} {t : Token} {f : Fault} (h : Refuses limit base st t f)
    (k : Nat) : Refuses limit base st (t.shift k) (f.shift k) := by
  cases h with
  | tooDeep ht h => exact .tooDeep ht h
  | unexpected ht => exact .unexpected ht
  | noCallee ht => exact .noCallee ht

/-- Offsets matter to nothing but the place of the fault. -/
theorem run_shift (k : Nat) (st : Partial) (ts : List Token) :
    st.run limit base (ts.map (Token.shift k)) =
      (st.run limit base ts).mapError (Fault.shift k) := by
  induction st, ts using reading limit base with
  | done st => exact (finish_mapError (fun _ => rfl) st).symm
  | @taken st st' t ts ht ih =>
    have hplain : t.plain = (t.shift k).plain := Token.plain_eq (Token.lexeme_shift k t).symm
    rw [List.map_cons, run_cons ht, run_cons (ht.congr hplain), ih]
  | refused ts hf =>
    rw [List.map_cons, run_refused hf, run_refused (hf.shift k)]
    rfl

end Partial

open Partial

/-- **Behind a program, tokens are read as if they were alone.** -/
theorem parseWithin_append {limit : Int} {ts : List Token} {p : Program}
    (h : parseWithin limit ts = .ok p) (us : List Token) :
    parseWithin limit (ts ++ us) = (parseWithin limit us).map (p ++ ·) := by
  rw [parseWithin_eq_run, run_eq_ok_iff] at h
  have hp : items [] p = start.behind p := by rw [start, behind, bottomed, List.append_nil]
  rw [parseWithin_eq_run, parseWithin_eq_run, run, advance_append h, hp]
  exact run_behind p start us

/-- **Tokens at later offsets** come to the same program, or to the same fault at a later offset. -/
theorem parseWithin_shift (limit : Int) (k : Nat) (ts : List Token) :
    parseWithin limit (ts.map (Token.shift k)) =
      (parseWithin limit ts).mapError (Fault.shift k) := by
  rw [parseWithin_eq_run, parseWithin_eq_run]
  exact run_shift k start ts

end CallNotation
