import CallNotation.Expr.Parse
import CallNotation.Proofs.Expr.Lexemes

/-!
# Programs read in part

What the parser knows in front of a token: the calls that are open, what has been read of the
innermost list, and whether a parenthesis still waits for its name. `Partial.step` reads one token,
`Partial.advance` any number, and `Partial.finish` is what the end of the tokens makes of it.

Results:
* **`parseFrom_eq_attempt`**: the parser reads one token after the other, up to the first that is
  refused; what it comes to is `advance` followed by `finish` (`parseFrom_result`).
* `Partial.advance_append`, `Partial.advance_error`: tokens are read one after the other, and
  the first one that is refused decides.
* `Partial.takes_or_refuses`: what one token comes to, in either case; `Partial.reading` is the
  induction on the tokens that goes with it.
* `Partial.advance_congr`: neither positions nor the values of parentheses matter to what is taken.
-/

namespace CallNotation

/-- A program read in part. -/
inductive Partial where
  /-- With the calls `frames` open, `items` has been read of the innermost list. -/
  | items (frames : List Frame) (items : List Expr)
  /-- The same, and behind them the parenthesis of a call whose name has not been read. -/
  | callee (frames : List Frame) (items : List Expr)

namespace Partial

variable {limit : Int} {base : Nat}

/-- Reads one token, where `base` calls are open around the program. -/
def step (limit : Int) (base : Nat) : Partial → Token → Except Fault Partial
  | items fs es, ⟨.number, digits, _⟩ => .ok (items fs (es ++ [.number digits]))
  | items fs es, ⟨.string, value, _⟩ => .ok (items fs (es ++ [.string value]))
  | items fs es, ⟨.lparen, _, position⟩ =>
    if limit < (base + fs.length : Nat) + 1 then .error (.nestingTooDeep limit (some position))
    else .ok (callee fs es)
  | items (f :: fs) es, ⟨.rparen, _, _⟩ => .ok (items fs (f.before ++ [.call f.name es]))
  | items _ _, t => .error (.unexpectedToken t (some expressionExpected))
  | callee fs es, ⟨.name, name, _⟩ => .ok (items (⟨name, es⟩ :: fs) [])
  | callee _ _, t => .error (.missingCallee t.mention (some t.position))

/-- Reads tokens up to the first that is refused. -/
def advance (limit : Int) (base : Nat) : Partial → List Token → Except Fault Partial
  | st, [] => .ok st
  | st, t :: ts =>
    match st.step limit base t with
    | .ok st => advance limit base st ts
    | .error f => .error f

/-- What a program read in part is if no token follows. -/
def finish : Partial → Except Fault Program
  | items [] es => .ok es
  | items (_ :: _) _ => .error (.unexpectedEnd closingExpected)
  | callee _ _ => .error (.unexpectedEnd calleeExpected)

/-- Nothing has been read. -/
def start : Partial := items [] []

/-- Reads tokens as the rest of a program. -/
def run (limit : Int) (base : Nat) (st : Partial) (ts : List Token) : Except Fault Program :=
  match st.advance limit base ts with
  | .ok st => st.finish
  | .error f => .error f

/-- The number of calls open, one whose name has not been read among them. -/
def depth : Partial → Nat
  | items fs _ => fs.length
  | callee fs _ => fs.length + 1

/-- Where the reading stops at a token that is refused: in front of it, but behind the parenthesis
of a call that is too deep. -/
def refused (base : Nat) (f : Fault) (ts : List Token) : Partial → Token → Parsed
  | items fs _, ⟨.lparen, _, _⟩ => ⟨.error f, ts, base + fs.length + 1⟩
  | st, t => ⟨.error f, t :: ts, base + st.depth⟩

/-- Reads tokens as the rest of a program, and keeps where it has stopped. -/
def attempt (limit : Int) (base : Nat) (st : Partial) : List Token → Parsed
  | [] => ⟨st.finish, [], base + st.depth⟩
  | t :: ts =>
    match st.step limit base t with
    | .ok st => attempt limit base st ts
    | .error f => st.refused base f ts t

/-! ## One token -/

/-- The tokens that are taken, and what they lead to. -/
inductive Takes (limit : Int) (base : Nat) : Partial → Token → Partial → Prop
  | number {fs : List Frame} {es : List Expr} {digits : Text} {position : Int} :
      Takes limit base (items fs es) ⟨.number, digits, position⟩ (items fs (es ++ [.number digits]))
  | string {fs : List Frame} {es : List Expr} {value : Text} {position : Int} :
      Takes limit base (items fs es) ⟨.string, value, position⟩ (items fs (es ++ [.string value]))
  | lparen {fs : List Frame} {es : List Expr} {value : Text} {position : Int}
      (h : (base + fs.length : Nat) + 1 ≤ limit) :
      Takes limit base (items fs es) ⟨.lparen, value, position⟩ (callee fs es)
  | name {fs : List Frame} {es : List Expr} {name : Text} {position : Int} :
      Takes limit base (callee fs es) ⟨.name, name, position⟩ (items (⟨name, es⟩ :: fs) [])
  | rparen {f : Frame} {fs : List Frame} {es : List Expr} {value : Text} {position : Int} :
      Takes limit base (items (f :: fs) es) ⟨.rparen, value, position⟩
        (items fs (f.before ++ [.call f.name es]))

/-- The tokens that are refused, and why. -/
inductive Refuses (limit : Int) (base : Nat) : Partial → Token → Fault → Prop
  | tooDeep {fs : List Frame} {es : List Expr} {t : Token} (ht : t.kind = .lparen)
      (h : limit < (base + fs.length : Nat) + 1) :
      Refuses limit base (items fs es) t (.nestingTooDeep limit (some t.position))
  | unexpected {fs : List Frame} {es : List Expr} {t : Token}
      (ht : t.kind = .name ∨ t.kind = .rparen ∧ fs = []) :
      Refuses limit base (items fs es) t (.unexpectedToken t (some expressionExpected))
  | noCallee {fs : List Frame} {es : List Expr} {t : Token} (ht : t.kind ≠ .name) :
      Refuses limit base (callee fs es) t (.missingCallee t.mention (some t.position))

theorem Takes.step_eq {st st' : Partial} {t : Token} (h : Takes limit base st t st') :
    st.step limit base t = .ok st' := by
  cases h with
  | number => rfl
  | string => rfl
  | lparen h => rw [step, if_neg (Int.not_lt.mpr h)]
  | name => rfl
  | rparen => rfl

theorem Refuses.step_eq {st : Partial} {t : Token} {f : Fault} (h : Refuses limit base st t f) :
    st.step limit base t = .error f := by
  obtain ⟨kind, value, position⟩ := t
  cases h with
  | tooDeep ht h =>
    obtain rfl : kind = .lparen := ht
    rw [step, if_pos h]
  | unexpected ht =>
    rcases ht with rfl | ⟨rfl, rfl⟩
    · rfl
    · rfl
  | noCallee ht =>
    cases kind with
    | name => exact absurd rfl ht
    | _ => rfl

/-- A token is taken or refused. -/
theorem takes_or_refuses (limit : Int) (base : Nat) (st : Partial) (t : Token) :
    (∃ st', Takes limit base st t st') ∨ ∃ f, Refuses limit base st t f := by
  obtain ⟨kind, value, position⟩ := t
  cases st with
  | items fs es =>
    cases kind with
    | lparen =>
      by_cases h : limit < (base + fs.length : Nat) + 1
      · exact .inr ⟨_, .tooDeep rfl h⟩
      · exact .inl ⟨_, .lparen (Int.not_lt.mp h)⟩
    | rparen =>
      cases fs with
      | nil => exact .inr ⟨_, .unexpected (.inr ⟨rfl, rfl⟩)⟩
      | cons f fs => exact .inl ⟨_, .rparen⟩
    | number => exact .inl ⟨_, .number⟩
    | string => exact .inl ⟨_, .string⟩
    | name => exact .inr ⟨_, .unexpected (.inl rfl)⟩
  | callee fs es =>
    by_cases h : kind = .name
    · subst h
      exact .inl ⟨_, .name⟩
    · exact .inr ⟨_, .noCallee h⟩

/-- **Induction on a reading**: the tokens have come to an end, or the first is taken and the others
are read behind it, or it is refused. -/
theorem reading (limit : Int) (base : Nat) {motive : Partial → List Token → Prop}
    (done : ∀ st, motive st [])
    (taken : ∀ {st st' t} ts, Takes limit base st t st' → motive st' ts → motive st (t :: ts))
    (refused : ∀ {st t f} ts, Refuses limit base st t f → motive st (t :: ts))
    (st : Partial) (ts : List Token) : motive st ts := by
  induction ts generalizing st with
  | nil => exact done st
  | cons t ts ih =>
    rcases takes_or_refuses limit base st t with ⟨st', ht⟩ | ⟨f, hf⟩
    · exact taken ts ht (ih st')
    · exact refused ts hf

/-- Neither the position of a token nor the value of a parenthesis matters. -/
theorem Takes.congr {st st' : Partial} {t u : Token} (h : Takes limit base st t st')
    (htu : t.plain = u.plain) : Takes limit base st u st' := by
  obtain ⟨kind, value, position⟩ := u
  cases h with
  | number => cases kind <;> cases htu; exact .number
  | string => cases kind <;> cases htu; exact .string
  | lparen h => cases kind <;> cases htu; exact .lparen h
  | name => cases kind <;> cases htu; exact .name
  | rparen => cases kind <;> cases htu; exact .rparen

/-! ## Any number of tokens -/

theorem advance_cons {st st' : Partial} {t : Token} (h : Takes limit base st t st')
    (ts : List Token) : st.advance limit base (t :: ts) = st'.advance limit base ts := by
  rw [advance, h.step_eq]

theorem advance_refused {st : Partial} {t : Token} {f : Fault} (h : Refuses limit base st t f)
    (ts : List Token) : st.advance limit base (t :: ts) = .error f := by
  rw [advance, h.step_eq]

/-- Where tokens have been read, the first was taken and the others behind it. -/
theorem exists_takes {st st' : Partial} {t : Token} {ts : List Token}
    (h : st.advance limit base (t :: ts) = .ok st') :
    ∃ st'', Takes limit base st t st'' ∧ st''.advance limit base ts = .ok st' := by
  rcases takes_or_refuses limit base st t with ⟨st'', ht⟩ | ⟨f, hf⟩
  · rw [advance_cons ht] at h
    exact ⟨st'', ht, h⟩
  · rw [advance_refused hf] at h
    cases h

/-- Tokens are read one after the other. -/
theorem advance_append {st st' : Partial} {ts : List Token} (h : st.advance limit base ts = .ok st')
    (us : List Token) : st.advance limit base (ts ++ us) = st'.advance limit base us := by
  induction ts generalizing st with
  | nil =>
    cases h
    rfl
  | cons t ts ih =>
    obtain ⟨st'', ht, hts⟩ := exists_takes h
    rw [List.cons_append, advance_cons ht, ih hts]

theorem advance_congr {st st' : Partial} {ts us : List Token}
    (h : st.advance limit base ts = .ok st') (htu : ts.map Token.plain = us.map Token.plain) :
    st.advance limit base us = .ok st' := by
  induction ts generalizing st us with
  | nil =>
    obtain rfl := List.map_eq_nil_iff.mp htu.symm
    exact h
  | cons t ts ih =>
    obtain ⟨u, us, rfl, hu, hus⟩ := List.map_eq_cons_iff.mp htu.symm
    obtain ⟨st'', ht, hts⟩ := exists_takes h
    rw [advance_cons (ht.congr hu.symm), ih hts hus.symm]

/-- The first token that is refused decides, whatever follows it. -/
theorem advance_error {st : Partial} {ts : List Token} {f : Fault}
    (h : st.advance limit base ts = .error f) :
    ∃ us t vs st', ts = us ++ t :: vs ∧ st.advance limit base us = .ok st' ∧
      Refuses limit base st' t f := by
  induction st, ts using reading limit base with
  | done st => cases h
  | @taken st st'' t ts ht ih =>
    rw [advance_cons ht] at h
    obtain ⟨us, u, vs, st', rfl, hus, hu⟩ := ih h
    exact ⟨t :: us, u, vs, st', rfl, by rw [advance_cons ht, hus], hu⟩
  | @refused st t g ts hg =>
    rw [advance_refused hg] at h
    cases h
    exact ⟨[], t, ts, st, rfl, rfl, hg⟩

theorem run_cons {st st' : Partial} {t : Token} (h : Takes limit base st t st')
    (ts : List Token) : st.run limit base (t :: ts) = st'.run limit base ts := by
  rw [run, run, advance_cons h]

theorem run_refused {st : Partial} {t : Token} {f : Fault} (h : Refuses limit base st t f)
    (ts : List Token) : st.run limit base (t :: ts) = .error f := by
  rw [run, advance_refused h]

theorem attempt_cons {st st' : Partial} {t : Token} (h : Takes limit base st t st')
    (ts : List Token) : st.attempt limit base (t :: ts) = st'.attempt limit base ts := by
  rw [attempt, h.step_eq]

theorem attempt_refused {st : Partial} {t : Token} {f : Fault} (h : Refuses limit base st t f)
    (ts : List Token) : st.attempt limit base (t :: ts) = st.refused base f ts t := by
  rw [attempt, h.step_eq]

theorem refused_result (base : Nat) (f : Fault) (ts : List Token) (st : Partial) (t : Token) :
    (st.refused base f ts t).result = .error f := by
  unfold refused
  split <;> rfl

/-- An attempt comes to what the tokens are read as. -/
theorem attempt_result (st : Partial) (ts : List Token) :
    (st.attempt limit base ts).result = st.run limit base ts := by
  induction st, ts using reading limit base with
  | done st => rfl
  | taken ts ht ih => rw [attempt_cons ht, run_cons ht, ih]
  | refused ts hf => rw [attempt_refused hf, run_refused hf, refused_result]

/-- There are two ways not to be a program: a token is refused, or the tokens end too early. -/
theorem run_error {st : Partial} {ts : List Token} {f : Fault}
    (h : st.run limit base ts = .error f) :
    (∃ us t vs st', ts = us ++ t :: vs ∧ st.advance limit base us = .ok st' ∧
      Refuses limit base st' t f) ∨
    ∃ st', st.advance limit base ts = .ok st' ∧ st'.finish = .error f := by
  unfold run at h
  split at h
  · rename_i st' hst
    exact .inr ⟨st', hst, h⟩
  · rename_i g hg
    cases h
    exact .inl (advance_error hg)

theorem finish_error {st : Partial} {f : Fault} (h : st.finish = .error f) :
    ∃ expected, f = .unexpectedEnd expected := by
  cases st with
  | items fs es =>
    cases fs with
    | nil => cases h
    | cons _ _ => exact ⟨_, (Except.error.inj h).symm⟩
  | callee fs es => exact ⟨_, (Except.error.inj h).symm⟩

/-- The end of the tokens has no place and no limit, so a change of these leaves it alone. -/
theorem finish_mapError {g : Fault → Fault}
    (hg : ∀ expected, g (.unexpectedEnd expected) = .unexpectedEnd expected) (st : Partial) :
    st.finish.mapError g = st.finish := by
  cases h : st.finish with
  | ok p => rfl
  | error f =>
    obtain ⟨expected, rfl⟩ := finish_error h
    exact congrArg Except.error (hg expected)

theorem Refuses.family {st : Partial} {t : Token} {f : Fault} (h : Refuses limit base st t f) :
    f.family = .structural := by
  cases h <;> rfl

/-- A refusal names the place of the token that is refused. -/
theorem Refuses.position {st : Partial} {t : Token} {f : Fault} (h : Refuses limit base st t f) :
    f.position = some t.position := by
  cases h <;> rfl

end Partial

open Partial in
/-- **The parser reads one token after the other**, and stops where a token is refused. -/
theorem parseFrom_eq_attempt (limit : Int) (base : Nat) (fs : List Frame) (es : List Expr)
    (ts : List Token) :
    parseFrom limit (base + fs.length) fs es ts = (items fs es).attempt limit base ts := by
  generalize hd : base + fs.length = depth
  fun_induction parseFrom limit depth fs es ts with
  | case1 =>
    subst hd
    rfl
  | case2 =>
    subst hd
    rfl
  | case3 depth fs es digits position ts ih => rw [ih hd, attempt_cons .number]
  | case4 depth fs es value position ts ih => rw [ih hd, attempt_cons .string]
  | case5 depth fs es value position ts hlt =>
    subst hd
    rw [attempt_refused (.tooDeep rfl hlt)]
    rfl
  | case6 depth fs es value position hlt =>
    subst hd
    rw [attempt_cons (.lparen (Int.not_lt.mp hlt))]
    rfl
  | case7 depth fs es value position hlt name position' ts ih =>
    subst hd
    rw [ih rfl, attempt_cons (.lparen (Int.not_lt.mp hlt)), attempt_cons .name]
  | case8 depth fs es value position hlt t ts hname =>
    subst hd
    have ht : t.kind ≠ .name := fun h => by
      obtain ⟨kind, name, position⟩ := t
      obtain rfl : kind = .name := h
      exact hname name position rfl
    rw [attempt_cons (.lparen (Int.not_lt.mp hlt)), attempt_refused (.noCallee ht)]
    rfl
  | case9 depth es value position ts =>
    subst hd
    rw [attempt_refused (.unexpected (.inr ⟨rfl, rfl⟩))]
    rfl
  | case10 depth es value position ts f fs ih =>
    rw [ih (by rw [← hd, List.length_cons, ← Nat.add_assoc, Nat.add_sub_cancel]),
      attempt_cons .rparen]
  | case11 depth fs es name position ts =>
    subst hd
    rw [attempt_refused (.unexpected (.inl rfl))]
    rfl

open Partial in
theorem parseFrom_result (limit : Int) (base : Nat) (fs : List Frame) (es : List Expr)
    (ts : List Token) :
    (parseFrom limit (base + fs.length) fs es ts).result = run limit base (items fs es) ts := by
  rw [parseFrom_eq_attempt, attempt_result]

theorem parseWithin_eq_run (limit : Int) (ts : List Token) :
    parseWithin limit ts = Partial.start.run limit 0 ts :=
  parseFrom_result limit 0 [] [] ts

/-- A fault that `parse` finds is structural. -/
theorem parseWithin_error_family {limit : Int} {ts : List Token} {f : Fault}
    (h : parseWithin limit ts = .error f) : f.family = .structural := by
  rw [parseWithin_eq_run] at h
  rcases Partial.run_error h with ⟨_, _, _, _, _, _, hr⟩ | ⟨st, _, hst⟩
  · exact hr.family
  · obtain ⟨expected, rfl⟩ := Partial.finish_error hst
    rfl

end CallNotation
