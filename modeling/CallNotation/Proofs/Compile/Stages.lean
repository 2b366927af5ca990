import CallNotation.Proofs.Compile.Language

/-!
# Stopping after a stage

A compilation that stops early has done what a longer one does first. So its result is that of the
longer one, cut off behind the stage (`Result.cut`), and its fault is the fault of the longer one.
Since no program fails to be rewritten or rendered, the last three stages succeed on the same texts.
A compiler keeps nothing of what it has compiled, so all that matters to an answer is the stage that
was set last (`Compiler.answers_append`).

Result:
* **`compileSource_stages`**: all this for every text, whatever was asked of the compiler before.
-/

namespace CallNotation

/-! ## Results cut off behind a stage -/

/-- What a compilation has produced up to the stage `last`, with everything later left unset. -/
def Result.cut (last : Stage) (r : Result) : Result where
  filename := r.filename
  tokens := r.tokens
  program := if .parse ≤ last then r.program else none
  target := if .transform ≤ last then r.target else none
  output := if .generate ≤ last then r.output else []

theorem Stage.le_trans {a b c : Stage} (h : a ≤ b) (h' : b ≤ c) : a ≤ c :=
  Nat.le_trans h h'

theorem Stage.le_generate (a : Stage) : a ≤ generate := by
  cases a <;> decide

theorem Stage.eq_scan {a : Stage} (h : ¬ parse ≤ a) : a = scan := by
  cases a with
  | scan => rfl
  | _ => exact absurd (by decide) h

theorem Result.cut_cut {a b : Stage} (h : a ≤ b) (r : Result) : (r.cut b).cut a = r.cut a := by
  have hkeep {α : Type} (s : Stage) (x y : α) :
      (if s ≤ a then (if s ≤ b then x else y) else y) = if s ≤ a then x else y := by
    by_cases hs : s ≤ a
    · rw [if_pos hs, if_pos hs, if_pos (Stage.le_trans hs h)]
    · rw [if_neg hs, if_neg hs]
  simp only [cut, hkeep]

section

variable {source : Text} {ts : List Token} (filename : String)

/-- A program compiles up to every stage, and an early stage leaves a part of the whole result. -/
theorem compileSource_program {p : Program} (hs : scan source = .ok ts) (hp : parse ts = .ok p)
    (last : Stage) :
    (⟨last⟩ : Compiler).compileSource source filename =
      .ok ((Result.upTo .generate filename ts p).cut last) := by
  rw [compileSource_eq, hs]
  by_cases h : Stage.parse ≤ last
  · simp only [if_pos h, hp, Result.upTo, Result.cut, Stage.le_generate, if_true]
  · obtain rfl := Stage.eq_scan h
    rfl

/-- What is no program fails, unless the compilation stops in front of the parser. -/
theorem compileSource_no_program {f : Fault} (hs : scan source = .ok ts) (hp : parse ts = .error f)
    (last : Stage) :
    (⟨last⟩ : Compiler).compileSource source filename =
      if .parse ≤ last then .error f else .ok { filename, tokens := ts } := by
  rw [compileSource_eq, hs]
  simp only [hp]

end

/-- **A compilation that stops earlier succeeds where a later one does**, with a part of its result,
and where it fails the later one fails alike. -/
theorem compileSource_of_le {a b : Stage} (h : a ≤ b) (source : Text) (filename : String) :
    (∀ r, (⟨b⟩ : Compiler).compileSource source filename = .ok r →
      (⟨a⟩ : Compiler).compileSource source filename = .ok (r.cut a)) ∧
    ∀ f, (⟨a⟩ : Compiler).compileSource source filename = .error f →
      (⟨b⟩ : Compiler).compileSource source filename = .error f := by
  cases hs : scan source with
  | error f =>
    rw [compileSource_eq, compileSource_eq, hs]
    exact ⟨fun r hr => (nomatch hr), fun g hg => hg⟩
  | ok ts =>
    cases hp : parse ts with
    | error f =>
      rw [compileSource_no_program filename hs hp, compileSource_no_program filename hs hp]
      by_cases ha : Stage.parse ≤ a
      · rw [if_pos ha, if_pos (Stage.le_trans ha h)]
        exact ⟨fun r hr => (nomatch hr), fun g hg => hg⟩
      · obtain rfl := Stage.eq_scan ha
        rw [if_neg ha]
        refine ⟨fun r hr => ?_, fun g hg => (nomatch hg)⟩
        split at hr
        · cases hr
        · cases hr
          rfl
    | ok p =>
      rw [compileSource_program filename hs hp, compileSource_program filename hs hp]
      refine ⟨?_, fun f hf => (nomatch hf)⟩
      rintro r ⟨⟩
      rw [Result.cut_cut h]

/-- **From the parser on, programs are what succeeds.** -/
theorem compileSource_succeeds_iff {last : Stage} (h : .parse ≤ last) (source : Text)
    (filename : String) :
    (∃ r, (⟨last⟩ : Compiler).compileSource source filename = .ok r) ↔
      ∃ ts p, scan source = .ok ts ∧ parse ts = .ok p := by
  constructor
  · rintro ⟨r, hr⟩
    cases hs : scan source with
    | error f =>
      rw [compileSource_eq, hs] at hr
      cases hr
    | ok ts =>
      cases hp : parse ts with
      | error f =>
        rw [compileSource_no_program filename hs hp, if_pos h] at hr
        cases hr
      | ok p => exact ⟨ts, p, rfl, hp⟩
  · rintro ⟨ts, p, hs, hp⟩
    exact ⟨_, compileSource_program filename hs hp last⟩

/-! ## Runs of one compiler -/

namespace Compiler

/-- What is done with a compiler. -/
inductive Request where
  /-- A text is compiled. -/
  | compile (source : Text) (filename : String)
  /-- The last stage to run is set. -/
  | stopAfter (last : Stage)

/-- The stage that a request sets, if it sets one. -/
def Request.stage? : Request → Option Stage
  | compile _ _ => none
  | stopAfter last => some last

/-- The answers that a compiler gives to requests, in order. -/
def answers (c : Compiler) : List Request → List (Except Fault Result)
  | [] => []
  | .compile source filename :: rs => c.compileSource source filename :: c.answers rs
  | .stopAfter last :: rs => answers { c with stopAfter := last } rs

/-- The stage that was set last. -/
def current (c : Compiler) (rs : List Request) : Stage :=
  (rs.filterMap Request.stage?).getLastD c.stopAfter

/-- **Answers depend on what was asked before by the stage that was set last.** -/
theorem answers_append (c : Compiler) (rs rs' : List Request) :
    c.answers (rs ++ rs') = c.answers rs ++ (⟨c.current rs⟩ : Compiler).answers rs' := by
  induction rs generalizing c with
  | nil => rfl
  | cons r rs ih =>
    cases r with
    | compile source filename =>
      rw [List.cons_append, answers, answers, ih, List.cons_append]
      rfl
    | stopAfter last =>
      rw [List.cons_append, answers, answers, ih, current, current, List.filterMap_cons]
      simp only [Request.stage?, List.getLastD_cons]

end Compiler

/-- **Stages agree.** Whatever was asked of a compiler before, a text is compiled up to the stage
that was set last. A compilation that stops earlier succeeds where a later one does, and then has
what that one has up to its stage and nothing else; where it fails, the later one fails with the
same fault. From the parser on, the texts that succeed are the programs: each can be rewritten, and
that can be rendered, without a fault. -/
theorem compileSource_stages (source : Text) (filename : String) :
    (∀ (c : Compiler) (earlier later : List Compiler.Request),
      c.answers (earlier ++ .compile source filename :: later) =
        c.answers earlier ++
          (⟨c.current earlier⟩ : Compiler).compileSource source filename ::
            (⟨c.current earlier⟩ : Compiler).answers later) ∧
    (∀ a b : Stage, a ≤ b →
      (∀ r, (⟨b⟩ : Compiler).compileSource source filename = .ok r →
        (⟨a⟩ : Compiler).compileSource source filename = .ok (r.cut a)) ∧
      ∀ f, (⟨a⟩ : Compiler).compileSource source filename = .error f →
        (⟨b⟩ : Compiler).compileSource source filename = .error f) ∧
    (∀ last : Stage, .parse ≤ last →
      ((∃ r, (⟨last⟩ : Compiler).compileSource source filename = .ok r) ↔
        ∃ ts p, scan source = .ok ts ∧ parse ts = .ok p)) ∧
    ∀ ts p, scan source = .ok ts → parse ts = .ok p →
      ∃ target output, (Rewriter.run {} p.toNode).1 = .ok target ∧ target.render = .ok output ∧
        ∀ last : Stage, (⟨last⟩ : Compiler).compileSource source filename =
          .ok (Result.cut last ⟨filename, ts, some p, some target, output⟩) := by
  refine ⟨fun c earlier later => ?_, fun a b h => compileSource_of_le h source filename,
    fun last h => compileSource_succeeds_iff h source filename, fun ts p hs hp => ?_⟩
  · rw [Compiler.answers_append, Compiler.answers]
  · exact ⟨p.target, p.rendering, p.run_toNode, p.render_target,
      compileSource_program filename hs hp⟩

end CallNotation
