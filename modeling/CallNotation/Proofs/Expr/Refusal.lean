import CallNotation.Proofs.Expr.Grammar
import CallNotation.Proofs.Token.Place

/-!
# Where the parser stops

The parser stops at a token that is refused or at the end of the tokens. Whether a token is refused
depends on its class alone, and of its place nothing depends but the place that the fault names.
Tokens that are all taken are the beginning of a program: `Partial.completion` is a rest.

Results:
* **`parseWithin_error_cases`**: the first token that is refused is the earliest fault, and where
  none is refused there is a rest that makes the tokens a program.
* **`parseWithin_congr`**: the same tokens in other places come to the same program, or to the same
  fault at the same token.
-/

namespace CallNotation

theorem Token.plain_eq {t u : Token} (h : t.lexeme = u.lexeme) : t.plain = u.plain := by
  obtain ⟨kind, value, position⟩ := u
  cases h
  cases t with | mk kind value position => cases kind <;> rfl

theorem Token.map_plain_eq {ts us : List Token} (h : ts.map lexeme = us.map lexeme) :
    ts.map plain = us.map plain := by
  induction ts generalizing us with
  | nil => rw [List.map_eq_nil_iff.mp h.symm]
  | cons t ts ih =>
    obtain ⟨u, us, rfl, hu, hus⟩ := List.map_eq_cons_iff.mp h.symm
    rw [List.map_cons, List.map_cons, plain_eq hu.symm, ih hus.symm]

namespace Partial

variable {limit : Int} {base : Nat}

/-! ## A token that is refused -/

/-- Where a token is refused, so is any other of its class. -/
theorem Refuses.of_kind {st : Partial} {t u : Token} {f : Fault} (h : Refuses limit base st t f)
    (hu : u.kind = t.kind) : ∃ g, Refuses limit base st u g := by
  cases h with
  | tooDeep ht h => exact ⟨_, .tooDeep (hu.trans ht) h⟩
  | unexpected ht => exact ⟨_, .unexpected (hu ▸ ht)⟩
  | noCallee ht => exact ⟨_, .noCallee (hu ▸ ht)⟩

/-- Where a token is refused, the same token in another place is refused for the same reason. -/
theorem Refuses.of_lexeme {st : Partial} {t u : Token} {f : Fault}
    (h : Refuses limit base st t f) (hu : t.lexeme = u.lexeme) :
    ∃ g, Refuses limit base st u g ∧ f.unplaced = g.unplaced := by
  have hk : u.kind = t.kind := congrArg Lexeme.kind hu.symm
  cases h with
  | tooDeep ht h => exact ⟨_, .tooDeep (hk.trans ht) h, rfl⟩
  | unexpected ht =>
    refine ⟨_, .unexpected (hk ▸ ht), ?_⟩
    simp only [Fault.unplaced, Fault.moved, Token.unplaced_eq hu]
  | noCallee ht =>
    refine ⟨_, .noCallee (hk ▸ ht), ?_⟩
    simp only [Fault.unplaced, Fault.moved, Token.mention_eq hu]

theorem run_append_refused {st st' : Partial} {us : List Token} {t : Token} {f : Fault}
    (hus : st.advance limit base us = .ok st') (h : Refuses limit base st' t f)
    (vs : List Token) : st.run limit base (us ++ t :: vs) = .error f := by
  rw [run, advance_append hus, advance_refused h]

/-! ## What is missing -/

/-- Lexemes that make a program of what has been read. -/
def completion : Partial → List Lexeme
  | items fs _ => List.replicate fs.length .rparen
  | callee fs _ => .name ['a'] :: List.replicate (fs.length + 1) .rparen

theorem completion_valid (st : Partial) : ∀ l ∈ st.completion, l.Valid := by
  have hparens : ∀ n, ∀ l ∈ List.replicate n Lexeme.rparen, l.Valid := fun n l hl => by
    rw [List.eq_of_mem_replicate hl]
    rfl
  cases st with
  | items fs es => exact hparens _
  | callee fs es =>
    refine List.forall_mem_cons.mpr ⟨⟨List.cons_ne_nil _ _, fun c hc => ?_⟩, hparens _⟩
    rw [List.mem_singleton.mp hc]
    rfl

theorem run_closings (fs : List Frame) (es : List Expr) :
    ∃ p, (items fs es).run limit base
      ((List.replicate fs.length Lexeme.rparen).map (·.token 0)) = .ok p := by
  induction fs generalizing es with
  | nil => exact ⟨es, rfl⟩
  | cons f fs ih =>
    rw [List.length_cons, List.replicate_succ, List.map_cons, Lexeme.rparen, Lexeme.token,
      run_cons .rparen]
    exact ih _

theorem run_completion (limit : Int) (base : Nat) (st : Partial) :
    ∃ p, st.run limit base (st.completion.map (·.token 0)) = .ok p := by
  cases st with
  | items fs es => exact run_closings fs es
  | callee fs es =>
    rw [completion, List.map_cons, Lexeme.name, Lexeme.token, run_cons .name]
    exact run_closings (⟨['a'], es⟩ :: fs) []

end Partial

open Partial

/-- **The earliest fault.** If the parser stops at a token, then the tokens in front of it lack a
rest at most, and no other token of its class is any better, whatever follows; else the tokens are
the beginning of a program. -/
theorem parseWithin_error_cases {limit : Int} {ts : List Token} {f : Fault}
    (h : parseWithin limit ts = .error f) :
    (∃ us t vs, ts = us ++ t :: vs ∧ f.position = some t.position ∧
      (∀ g, parseWithin limit us = .error g → ∃ expected, g = .unexpectedEnd expected) ∧
      ∀ u ws, u.kind = t.kind → ∃ g, parseWithin limit (us ++ u :: ws) = .error g) ∨
    ((∃ expected, f = .unexpectedEnd expected) ∧
      ∃ (ls : List Lexeme) (p : Program), (∀ l ∈ ls, l.Valid) ∧
        ts.map Token.plain ++ ls = p.lexemes ∧ p.Within limit) := by
  rw [parseWithin_eq_run] at h
  rcases run_error h with ⟨us, t, vs, st, rfl, hus, ht⟩ | ⟨st, hts, hst⟩
  · refine .inl ⟨us, t, vs, rfl, ht.position, fun g hg => ?_, fun u ws hu => ?_⟩
    · rw [parseWithin_eq_run, run, hus] at hg
      exact finish_error hg
    · obtain ⟨g, hg⟩ := ht.of_kind hu
      exact ⟨g, (parseWithin_eq_run _ _).trans (run_append_refused hus hg ws)⟩
  · obtain ⟨p, hp⟩ := run_completion limit 0 st
    have hrest : parseWithin limit (ts ++ st.completion.map (·.token 0)) = .ok p := by
      rwa [parseWithin_eq_run, run, advance_append hts]
    rw [parseWithin_eq_ok_iff, List.map_append, Lexeme.map_plain_token st.completion_valid] at hrest
    exact .inr ⟨finish_error hst, st.completion, p, st.completion_valid, hrest⟩

/-- **Only places depend on places.** The same tokens in other places come to the same program, or
to faults that are the same but for their places. -/
theorem parseWithin_congr (limit : Int) {ts us : List Token}
    (h : ts.map Token.lexeme = us.map Token.lexeme) :
    (∃ p, parseWithin limit ts = .ok p ∧ parseWithin limit us = .ok p) ∨
      ∃ f g, parseWithin limit ts = .error f ∧ parseWithin limit us = .error g ∧
        Fault.SameButPlace ts us f g := by
  have hplain := Token.map_plain_eq h
  simp only [parseWithin_eq_run]
  cases hts : start.run limit 0 ts with
  | ok p =>
    refine .inl ⟨p, rfl, ?_⟩
    rw [← parseWithin_eq_run, parseWithin_eq_ok_iff] at hts ⊢
    rwa [← hplain]
  | error f =>
    refine .inr ⟨f, ?_⟩
    rcases run_error hts with ⟨as, t, bs, st, rfl, has, ht⟩ | ⟨st, hst, hf⟩
    · rw [List.map_append, List.map_cons] at h
      obtain ⟨as', us', rfl, has', hus'⟩ := List.map_eq_append_iff.mp h.symm
      obtain ⟨u, bs', rfl, hu, -⟩ := List.map_eq_cons_iff.mp hus'
      obtain ⟨g, hg, hfg⟩ := ht.of_lexeme hu.symm
      have hadvance := advance_congr has (Token.map_plain_eq has'.symm)
      have hlen : as'.length = as.length := by simpa using congrArg List.length has'
      refine ⟨g, rfl, run_append_refused hadvance hg bs', .of_cause hfg (.inr ?_)⟩
      exact ⟨as.length, t, u, by simp, by simp [← hlen], ht.position, hg.position⟩
    · obtain ⟨expected, rfl⟩ := finish_error hf
      refine ⟨_, rfl, ?_, .of_cause rfl (.inl ⟨rfl, rfl⟩)⟩
      rw [run, advance_congr hst hplain]
      exact hf

end CallNotation
