import CallNotation.Proofs.Expr.Sequence

/-!
# Repeated attempts

A parser keeps its cursor and the number of open calls, also where an attempt fails. So whatever was
done with it, the calls open are the parentheses behind the cursor that are not closed
(`Parser.Sound`), and an attempt is that of a new parser on the rest of the tokens, under what the
open calls leave of the limit (`Parser.Resumes`).

* `Partial.attempt_rebase`: open calls around a program matter to the limit and to nothing else.
* `Partial.attempt_taken`: what is taken of the tokens, and the calls that it leaves open.

Result:
* **`Parser.run_resumes`**: all this after every run of attempts and of pushes; and as long as no
  attempt fails, the programs in a row are one program, read from all tokens taken.
-/

namespace CallNotation

/-- The number of opening parentheses less that of closing ones. -/
def Token.openings (ts : List Token) : Int :=
  ts.countP (·.kind = .lparen) - ts.countP (·.kind = .rparen)

theorem Token.openings_append (ts us : List Token) :
    openings (ts ++ us) = openings ts + openings us := by
  simp only [openings, List.countP_append]
  omega

/-- The fault with another limit, if it names one. -/
def Fault.withLimit (limit : Int) : Fault → Fault
  | nestingTooDeep _ position => nestingTooDeep limit position
  | f => f

/-- The same with `around` more calls open, where the limit is `limit`. -/
def Parsed.within (limit : Int) (around : Nat) (q : Parsed) : Parsed :=
  ⟨q.result.mapError (Fault.withLimit limit), q.rest, around + q.depth⟩

namespace Partial

variable {limit : Int} {around base : Nat}

/-! ## Open calls around a program -/

theorem Takes.rebase {st st' : Partial} {t : Token} (h : Takes (limit - around) base st t st') :
    Takes limit (around + base) st t st' := by
  cases h with
  | number => exact .number
  | string => exact .string
  | lparen h => exact .lparen (by omega)
  | name => exact .name
  | rparen => exact .rparen

theorem Refuses.rebase {st : Partial} {t : Token} {f : Fault}
    (h : Refuses (limit - around) base st t f) :
    Refuses limit (around + base) st t (f.withLimit limit) := by
  cases h with
  | tooDeep ht h => exact .tooDeep ht (by omega)
  | unexpected ht => exact .unexpected ht
  | noCallee ht => exact .noCallee ht

theorem refused_within (limit : Int) (around base : Nat) (f : Fault) (ts : List Token)
    (st : Partial) (t : Token) :
    (st.refused base f ts t).within limit around =
      st.refused (around + base) (f.withLimit limit) ts t := by
  unfold refused
  split
  · simp only [Parsed.within, Nat.add_assoc]
    rfl
  · simp only [Parsed.within, Nat.add_assoc]
    rfl

/-- **Open calls around a program** leave less of the limit, and count. -/
theorem attempt_rebase (limit : Int) (around base : Nat) (st : Partial) (ts : List Token) :
    st.attempt limit (around + base) ts =
      (st.attempt (limit - around) base ts).within limit around := by
  induction st, ts using reading (limit - around) base with
  | done st => rw [attempt, attempt, Parsed.within, finish_mapError fun _ => rfl, Nat.add_assoc]
  | taken ts ht ih => rw [attempt_cons ht, attempt_cons ht.rebase, ih]
  | refused ts hf => rw [attempt_refused hf, attempt_refused hf.rebase, refused_within]

/-! ## What is taken -/

theorem Takes.depth {st st' : Partial} {t : Token} (h : Takes limit base st t st') :
    (st'.depth : Int) = st.depth + Token.openings [t] := by
  cases h with
  | number => simp [Partial.depth, Token.openings]
  | string => simp [Partial.depth, Token.openings]
  | lparen h => simp [Partial.depth, Token.openings]
  | name => simp [Partial.depth, Token.openings]
  | @rparen f fs es value position =>
    have hclosed : Token.openings [⟨.rparen, value, position⟩] = -1 := rfl
    simp only [Partial.depth, hclosed, List.length_cons]
    omega

/-- At a token that is refused, nothing is taken but the parenthesis of a call that is too deep. -/
theorem Refuses.taken {st : Partial} {t : Token} {f : Fault} (h : Refuses limit base st t f)
    (ts : List Token) :
    ∃ us, t :: ts = us ++ (st.refused base f ts t).rest ∧
      ((st.refused base f ts t).depth : Int) = (base + st.depth : Nat) + Token.openings us := by
  obtain ⟨kind, value, position⟩ := t
  cases h with
  | tooDeep ht h =>
    obtain rfl : kind = .lparen := ht
    exact ⟨[⟨.lparen, value, position⟩], rfl, rfl⟩
  | unexpected ht =>
    refine ⟨[], ?_, ?_⟩
    all_goals rcases ht with rfl | ⟨rfl, rfl⟩ <;> simp [refused, Partial.depth, Token.openings]
  | noCallee ht => exact ⟨[], rfl, (Int.add_zero _).symm⟩

/-- **What an attempt takes** of the tokens, and how many calls it leaves open. -/
theorem attempt_taken (limit : Int) (base : Nat) (st : Partial) (ts : List Token) :
    ∃ us, ts = us ++ (st.attempt limit base ts).rest ∧
      ((st.attempt limit base ts).depth : Int) = (base + st.depth : Nat) + Token.openings us := by
  induction st, ts using reading limit base with
  | done st => exact ⟨[], rfl, (Int.add_zero _).symm⟩
  | @taken st st' t ts ht ih =>
    obtain ⟨us, hus, hdepth⟩ := ih
    have hopen := Token.openings_append [t] us
    have hstep := ht.depth
    rw [attempt_cons ht]
    refine ⟨t :: us, by rw [List.cons_append, ← hus], ?_⟩
    rw [List.singleton_append] at hopen
    omega
  | refused ts hf =>
    rw [attempt_refused hf]
    exact hf.taken ts

/-- An attempt that succeeds takes all tokens and leaves no call open. -/
theorem attempt_ok {st : Partial} {ts : List Token} {p : Program}
    (h : (st.attempt limit base ts).result = .ok p) :
    (st.attempt limit base ts).rest = [] ∧ (st.attempt limit base ts).depth = base := by
  induction st, ts using reading limit base with
  | done st =>
    obtain rfl := finish_eq_ok_iff.mp h
    exact ⟨rfl, rfl⟩
  | taken ts ht ih =>
    rw [attempt_cons ht] at h ⊢
    exact ih h
  | refused ts hf =>
    rw [attempt_refused hf, refused_result] at h
    cases h

end Partial

namespace Parser

/-! ## One attempt -/

/-- A new parser on the tokens behind the cursor, under what the open calls leave of the limit. -/
def afresh (p : Parser) : Parser :=
  { tokens := p.tokens.drop p.cursor, limit := p.limit - p.depth }

/-- **The next attempt is that of a new parser** on the rest of the tokens, but that a fault names
the whole limit. -/
structure Resumes (p : Parser) : Prop where
  /-- The same program, or the same fault. -/
  result : p.parse.1 = p.afresh.parse.1.mapError (Fault.withLimit p.limit)
  /-- Cursor and open calls go on from where they are. -/
  parser : p.parse.2 = { p with
    cursor := p.cursor + p.afresh.parse.2.cursor
    depth := p.depth + p.afresh.parse.2.depth }
  /-- Where it succeeds, nothing is left and no call of its own is open. -/
  success : ∀ body, p.parse.1 = .ok body →
    p.afresh.parse.2.depth = 0 ∧ p.parse.2.cursor = p.tokens.length

/-- The cursor is among the tokens, and behind it stand the parentheses of the open calls. -/
structure Sound (p : Parser) : Prop where
  cursor_le : p.cursor ≤ p.tokens.length
  depth_eq : (p.depth : Int) = Token.openings (p.tokens.take p.cursor)

/-- What the next attempt comes to. -/
def attempt (p : Parser) : Parsed :=
  Partial.start.attempt p.limit p.depth (p.tokens.drop p.cursor)

theorem parse_eq (p : Parser) :
    p.parse = (p.attempt.result, { p with
      cursor := p.tokens.length - p.attempt.rest.length
      depth := p.attempt.depth }) := by
  have h := parseFrom_eq_attempt p.limit p.depth [] [] (p.tokens.drop p.cursor)
  rw [attempt, Partial.start, ← h]
  rfl

theorem attempt_eq_within (p : Parser) :
    p.attempt = p.afresh.attempt.within p.limit p.depth :=
  Partial.attempt_rebase p.limit p.depth 0 Partial.start (p.tokens.drop p.cursor)

theorem attempt_taken (p : Parser) :
    ∃ us, p.tokens.drop p.cursor = us ++ p.attempt.rest ∧
      (p.attempt.depth : Int) = p.depth + Token.openings us :=
  Partial.attempt_taken p.limit p.depth Partial.start (p.tokens.drop p.cursor)

theorem attempt_ok {p : Parser} {body : Program} (h : p.attempt.result = .ok body) :
    p.attempt.rest = [] ∧ p.attempt.depth = p.depth :=
  Partial.attempt_ok h

theorem resumes {p : Parser} (h : p.cursor ≤ p.tokens.length) : p.Resumes := by
  have hwithin := p.attempt_eq_within
  have hrest : p.attempt.rest = p.afresh.attempt.rest := by
    rw [hwithin]
    rfl
  have hdepth : p.attempt.depth = p.depth + p.afresh.attempt.depth := by
    rw [hwithin]
    rfl
  refine ⟨?_, ?_, fun body hbody => ?_⟩
  · rw [parse_eq, parse_eq, hwithin]
    rfl
  · obtain ⟨us, hus, -⟩ := p.attempt_taken
    have hlen := congrArg List.length hus
    rw [List.length_append, List.length_drop, hrest] at hlen
    have hfresh : p.afresh.tokens.length = p.tokens.length - p.cursor := List.length_drop
    simp only [parse_eq, Parser.mk.injEq, true_and, and_true, hrest]
    exact ⟨by omega, hdepth⟩
  · rw [parse_eq] at hbody
    obtain ⟨hnil, hopen⟩ := attempt_ok hbody
    simp only [parse_eq]
    refine ⟨by omega, ?_⟩
    rw [hnil]
    rfl

theorem Sound.push {p : Parser} (h : p.Sound) (ts : List Token) : (p.push ts).Sound := by
  refine ⟨?_, ?_⟩
  · rw [Parser.push, List.length_append]
    exact Nat.le_add_right_of_le h.cursor_le
  · rw [Parser.push, List.take_append_of_le_length h.cursor_le]
    exact h.depth_eq

theorem Sound.parse {p : Parser} (h : p.Sound) : p.parse.2.Sound := by
  obtain ⟨us, hus, hdepth⟩ := p.attempt_taken
  have htokens : p.tokens = (p.tokens.take p.cursor ++ us) ++ p.attempt.rest := by
    rw [List.append_assoc, ← hus, List.take_append_drop]
  have hcursor : p.tokens.length - p.attempt.rest.length =
      (p.tokens.take p.cursor ++ us).length := by
    have hlen := congrArg List.length htokens
    rw [List.length_append] at hlen
    omega
  have htake : p.tokens.take (p.tokens.length - p.attempt.rest.length) =
      p.tokens.take p.cursor ++ us := by
    rw [hcursor]
    exact (congrArg (List.take _) htokens).trans List.take_left
  rw [parse_eq]
  refine ⟨Nat.sub_le _ _, ?_⟩
  simp only [htake, Token.openings_append, ← h.depth_eq]
  exact hdepth

/-! ## Runs -/

/-- What a parser comes to after attempts and pushes in any order, and what the attempts came to. -/
inductive Run (start : Parser) : List (Except Fault Program) → Parser → Prop
  | nil : Run start [] start
  | push {results : List (Except Fault Program)} {p : Parser} (h : Run start results p)
      (ts : List Token) : Run start results (p.push ts)
  | parse {results : List (Except Fault Program)} {p : Parser} (h : Run start results p) :
      Run start (results ++ [p.parse.1]) p.parse.2

variable {tokens : List Token} {limit : Int} {results : List (Except Fault Program)} {p : Parser}

theorem Run.limit_eq (h : Run { tokens, limit } results p) : p.limit = limit := by
  induction h with
  | nil => rfl
  | push _ _ ih => exact ih
  | parse _ ih => exact ih

theorem Run.sound (h : Run { tokens, limit } results p) : p.Sound := by
  induction h with
  | nil => exact ⟨Nat.zero_le _, rfl⟩
  | push _ ts ih => exact ih.push ts
  | parse _ ih => exact ih.parse

/-- As long as no attempt fails, all that was read is one program. -/
theorem Run.bodies (h : Run { tokens, limit } results p) :
    ∀ bodies : List Program, results = bodies.map .ok →
      p.depth = 0 ∧ parseWithin limit (p.tokens.take p.cursor) = .ok bodies.flatten := by
  induction h with
  | nil =>
    intro bodies hb
    obtain rfl := List.map_eq_nil_iff.mp hb.symm
    exact ⟨rfl, rfl⟩
  | @push results p h ts ih =>
    intro bodies hb
    obtain ⟨hdepth, hparse⟩ := ih bodies hb
    refine ⟨hdepth, ?_⟩
    rw [Parser.push, List.take_append_of_le_length h.sound.cursor_le]
    exact hparse
  | @parse results p h ih =>
    intro bodies hb
    obtain ⟨earlier, last, rfl, hearlier, hlast⟩ := List.map_eq_append_iff.mp hb.symm
    obtain ⟨body, rest, rfl, hbody, hrest⟩ := List.map_eq_cons_iff.mp hlast
    obtain rfl := List.map_eq_nil_iff.mp hrest
    obtain ⟨hdepth, hparse⟩ := ih earlier hearlier.symm
    obtain ⟨hfresh, hcursor⟩ := (resumes h.sound.cursor_le).success body hbody.symm
    have hparser := (resumes h.sound.cursor_le).parser
    -- no call is open, so the attempt is that of a new parser under the whole limit
    have hthis : parseWithin limit (p.tokens.drop p.cursor) = .ok body := by
      rw [hbody, ← h.limit_eq, parseWithin, ← hdepth]
      rfl
    have hrun := parseWithin_append hparse (p.tokens.drop p.cursor)
    rw [List.take_append_drop, hthis] at hrun
    refine ⟨?_, ?_⟩
    · rw [hparser, hfresh]
      exact hdepth
    · rw [hcursor, List.flatten_append, List.flatten_singleton]
      exact (congrArg (parseWithin limit) (List.take_length)).trans hrun

/-- **After any run of attempts and pushes** the cursor is among the tokens, the open calls are the
parentheses behind it that are not closed, and the next attempt is that of a new parser on the rest
of the tokens. As long as no attempt has failed, the programs in a row are what one attempt reads
from all the tokens taken. -/
theorem run_resumes (h : Run { tokens, limit } results p) :
    p.limit = limit ∧ p.Sound ∧ p.Resumes ∧
      ∀ bodies : List Program, results = bodies.map .ok →
        ({ tokens := p.tokens.take p.cursor, limit } : Parser).parse.1 = .ok bodies.flatten :=
  ⟨h.limit_eq, h.sound, resumes h.sound.cursor_le, fun bodies hb => (h.bodies bodies hb).2⟩

/-- An attempt that ends in the middle of a call leaves it open, and the next one reads a program
within it, here at the last level allowed. Where both succeed, the two programs are one. -/
theorem run_resumes_within_open_call :
    (∃ p, Run { tokens := [⟨.lparen, ['('], 0⟩], limit := 2 }
        [.error (.unexpectedEnd calleeExpected), .ok [.call ['f'] [.number ['1']]]] p ∧
      p.cursor = 5 ∧ p.depth = 1 ∧ p.limit = 2 ∧ p.Sound ∧ p.Resumes) ∧
    ∃ p, Run { tokens := [⟨.number, ['7'], 0⟩], limit := 2 }
        [.ok [.number ['7']], .ok [.call ['f'] [.number ['1']]]] p ∧
      ({ tokens := p.tokens.take p.cursor, limit := 2 } : Parser).parse.1 =
        .ok [.number ['7'], .call ['f'] [.number ['1']]] := by
  have hrun (t : Token) := Run.parse (.push (.parse (@Run.nil { tokens := [t], limit := 2 }))
    [⟨.lparen, ['('], 1⟩, ⟨.name, ['f'], 2⟩, ⟨.number, ['1'], 4⟩, ⟨.rparen, [')'], 5⟩])
  obtain ⟨hlimit, hsound, hresumes, -⟩ := run_resumes (hrun ⟨.lparen, ['('], 0⟩)
  obtain ⟨-, -, -, hbodies⟩ := run_resumes (hrun ⟨.number, ['7'], 0⟩)
  exact ⟨⟨_, hrun ⟨.lparen, ['('], 0⟩, rfl, rfl, hlimit, hsound, hresumes⟩,
    _, hrun ⟨.number, ['7'], 0⟩, hbodies [[.number ['7']], [.call ['f'] [.number ['1']]]] rfl⟩

end Parser

end CallNotation
