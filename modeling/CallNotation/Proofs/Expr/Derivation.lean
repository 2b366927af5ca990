import CallNotation.Proofs.Expr.Grammar
import Mathlib.Data.List.MinMax

/-!
# Programs as the derivations of their tokens

A program is written out as lexemes, and reading them gives the program back: nothing of it is lost,
so two programs that are written alike are the same. What can be read is limited by the levels at
which calls stand. A call at the top level is at level 1, its arguments are one level further down,
and what stands beside a call does not matter to its level.

Results:
* `Program.within_iff`: a program is within a limit iff the levels of all its calls are.
* `Program.lexemes_injective`: a program is told by its lexemes.
* **`Parser.parse_derives`**: the parser reads the programs within its limit from their tokens, and
  reads nothing else.
-/

namespace CallNotation

/-! ## Levels -/

namespace Expr

mutual

/-- The levels of the calls of an expression that stands within `level` calls. -/
def callLevels (level : Nat) : Expr → List Nat
  | number _ => []
  | string _ => []
  | call _ args => (level + 1) :: listCallLevels (level + 1) args

/-- The levels of the calls of expressions in a row. -/
def listCallLevels (level : Nat) : List Expr → List Nat
  | [] => []
  | e :: es => e.callLevels level ++ listCallLevels level es

end

section

variable {limit : Int}

mutual

theorem within_iff (level : Nat) : ∀ e : Expr,
    e.Within limit level ↔ ∀ n ∈ e.callLevels level, (n : Int) ≤ limit
  | number _ => by simp [Within, callLevels]
  | string _ => by simp [Within, callLevels]
  | call _ args => by
    rw [Within, callLevels, List.forall_mem_cons, allWithin_iff (level + 1) args, Int.natCast_succ]

theorem allWithin_iff (level : Nat) : ∀ es : List Expr,
    AllWithin limit level es ↔ ∀ n ∈ listCallLevels level es, (n : Int) ≤ limit
  | [] => by simp [AllWithin, listCallLevels]
  | e :: es => by
    rw [AllWithin, listCallLevels, List.forall_mem_append, within_iff level e,
      allWithin_iff level es]

end

end

end Expr

namespace Program

/-- The levels of the calls of a program. -/
def callLevels (p : Program) : List Nat :=
  Expr.listCallLevels 0 p

theorem within_iff {limit : Int} (p : Program) :
    p.Within limit ↔ ∀ level ∈ p.callLevels, (level : Int) ≤ limit :=
  Expr.allWithin_iff 0 p

/-- There is a limit for any two programs. -/
theorem exists_within (p q : Program) : ∃ limit : Int, p.Within limit ∧ q.Within limit := by
  refine ⟨((p.callLevels ++ q.callLevels).foldr max 0 : Nat), ?_⟩
  rw [within_iff, within_iff, ← List.forall_mem_append]
  intro level hlevel
  exact Int.ofNat_le.mpr (List.le_max_of_le' 0 hlevel (Nat.le_refl level))

/-! ## Reading what is written -/

/-- The tokens of a program, all at the offset 0. -/
def tokens (p : Program) : List Token :=
  p.lexemes.map (·.token 0)

/-- A program within the limit is read from its tokens. -/
theorem parseWithin_tokens {limit : Int} {p : Program} (h : p.Within limit) :
    parseWithin limit p.tokens = .ok p := by
  rw [parseWithin_eq_run, Partial.run_eq_ok_iff]
  exact Partial.advance_exprs p [] [] h

/-- **A program is told by its lexemes.** -/
theorem lexemes_injective {p q : Program} (h : p.lexemes = q.lexemes) : p = q := by
  obtain ⟨limit, hp, hq⟩ := exists_within p q
  have hread : parseWithin limit p.tokens = .ok q := by
    rw [tokens, h]
    exact parseWithin_tokens hq
  exact Except.ok.inj ((parseWithin_tokens hp).symm.trans hread)

end Program

/-- **The parser reads programs from their tokens and nothing else.** What it reads from a list of
tokens is the program that is written with them, offsets and the values of parentheses apart, if
none of its calls stands at a level above the limit; otherwise it fails. No other program is written
with the same tokens, and the tokens of a program are read as that program. -/
theorem Parser.parse_derives (tokens : List Token) (limit : Int) :
    (∀ p : Program, ({ tokens, limit } : Parser).parse.1 = .ok p ↔
      tokens.map Token.plain = p.lexemes ∧ ∀ level ∈ p.callLevels, (level : Int) ≤ limit) ∧
    Function.Injective Program.lexemes ∧
    ∀ p : Program, ({ tokens := p.tokens, limit } : Parser).parse.1 = .ok p ↔
      ∀ level ∈ p.callLevels, (level : Int) ≤ limit := by
  have hparse (ts : List Token) :
      ({ tokens := ts, limit } : Parser).parse.1 = parseWithin limit ts := rfl
  refine ⟨fun p => ?_, fun _ _ => Program.lexemes_injective, fun p => ?_⟩
  · rw [hparse, parseWithin_eq_ok_iff, p.within_iff]
  · rw [hparse, ← p.within_iff]
    exact ⟨fun h => (parseWithin_eq_ok_iff.mp h).2, Program.parseWithin_tokens⟩

end CallNotation
