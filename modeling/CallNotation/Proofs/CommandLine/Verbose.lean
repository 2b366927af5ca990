import CallNotation.Proofs.CommandLine.Course
import CallNotation.Proofs.Compile.Stages
import Mathlib.Data.List.Forall2

/-!
# Verbose runs

The option `-v` in front of the arguments is a step to the side: what else is asked for is the same,
so the run goes the same way. Only its error stream differs. It has the notes of what was done in
front of the report, and behind the report of an internal error the header of a trace. What is noted
of a compilation is what its stages come to, up to the first that fails.

Results:
* `Note.line`, `showNotes_eq`: the lines that are printed for notes, as they are spelled.
* `compileNoting_notes`: a compilation notes each stage that it completes, once and in order.
* **`run_verbosely`**: a verbose run against the same run, and what it notes.
-/

namespace CallNotation

/-! ## Lines -/

/-- The line that a verbose run prints for a note. -/
def Note.line : Note → String
  | .read characters name => s!"DEBUG: Read {characters} characters from {name}\n"
  | .compiling name .scan => s!"DEBUG: Compiling {name} (stop after SCAN)\n"
  | .compiling name .parse => s!"DEBUG: Compiling {name} (stop after PARSE)\n"
  | .compiling name .transform => s!"DEBUG: Compiling {name} (stop after TRANSFORM)\n"
  | .compiling name .generate => s!"DEBUG: Compiling {name} (stop after GENERATE)\n"
  | .scanned tokens characters =>
    s!"DEBUG: Scanned {tokens} tokens from {characters} characters\n"
  | .parsed expressions => s!"DEBUG: Parsed {expressions} top-level expressions\n"
  | .transformed expressions => s!"DEBUG: Transformed {expressions} top-level expressions\n"
  | .generated characters => s!"DEBUG: Generated {characters} characters\n"
  | .wrote characters path => s!"DEBUG: Wrote {characters} characters to {path}\n"

/-- The lines that a verbose run prints for its notes. -/
def noteLines (notes : List Note) : String :=
  String.join (notes.map Note.line)

theorem message_line (note : Note) : s!"DEBUG: {note.message}\n" = note.line := by
  rw [← String.toList_inj]
  unfold Note.line
  split <;> simp [Note.message, Stage.label, toString]

theorem showNotes_eq (notes : List Note) : showNotes notes = noteLines notes :=
  congrArg String.join (List.map_congr_left fun note _ => message_line note)

/-! ## Stages -/

/-- A stage is completed on a source, and what is noted of it. -/
inductive Completes (source : Text) : Stage → Note → Prop
  /-- The source has tokens. -/
  | scan {ts : List Token} (hs : scan source = .ok ts) :
      Completes source .scan (.scanned ts.length source.length)
  /-- The tokens are a program. -/
  | parse {ts : List Token} {p : Program} (hs : scan source = .ok ts) (hp : parse ts = .ok p) :
      Completes source .parse (.parsed p.length)
  /-- The program is rewritten. -/
  | transform {ts : List Token} {p : Program} {target : Node} (hs : scan source = .ok ts)
      (hp : parse ts = .ok p) (ht : (Rewriter.run {} p.toNode).1 = .ok target) :
      Completes source .transform (.transformed p.length)
  /-- Its target is rendered. -/
  | generate {ts : List Token} {p : Program} {target : Node} {output : Text}
      (hs : scan source = .ok ts) (hp : parse ts = .ok p)
      (ht : (Rewriter.run {} p.toNode).1 = .ok target) (ho : target.render = .ok output) :
      Completes source .generate (.generated output.length)

/-- **One note for each stage that is completed**, in the order of the stages, where none is run
behind `last`. -/
structure StageNotes (last : Stage) (source : Text) (stages : List Stage) (notes : List Note) :
    Prop where
  /-- The stages stand in their order, and none stands there twice. -/
  ordered : stages.Pairwise (·.index < ·.index)
  /-- They are the stages that are completed. -/
  mem_iff : ∀ stage, stage ∈ stages ↔ stage ≤ last ∧ ∃ note, Completes source stage note
  /-- Each note is that of its stage. -/
  noted : List.Forall₂ (Completes source) stages notes

section

variable {source : Text} {ts : List Token} {p : Program} {f : Fault} {last stage : Stage}
  {note : Note}

theorem Stage.scan_le (last : Stage) : .scan ≤ last := by
  cases last <;> decide

theorem not_completes (hs : scan source = .error f) : ¬ Completes source stage note := by
  rintro (h | h | h | h) <;> rw [hs] at h <;> cases h

theorem eq_scan_of_completes (hs : scan source = .ok ts) (hp : parse ts = .error f)
    (h : Completes source stage note) : stage = .scan := by
  cases h with
  | scan _ => rfl
  | parse hs' hp' =>
    cases hs.symm.trans hs'
    cases hp.symm.trans hp'
  | transform hs' hp' =>
    cases hs.symm.trans hs'
    cases hp.symm.trans hp'
  | generate hs' hp' =>
    cases hs.symm.trans hs'
    cases hp.symm.trans hp'

/-- What is noted of the stages of a program. -/
def Program.stageNote (source : Text) (ts : List Token) (p : Program) : Stage → Note
  | .scan => .scanned ts.length source.length
  | .parse => .parsed p.length
  | .transform => .transformed p.length
  | .generate => .generated p.rendering.length

theorem Program.completes (hs : scan source = .ok ts) (hp : parse ts = .ok p) (stage : Stage) :
    Completes source stage (p.stageNote source ts stage) := by
  cases stage with
  | scan => exact .scan hs
  | parse => exact .parse hs hp
  | transform => exact .transform hs hp p.run_toNode
  | generate => exact .generate hs hp p.run_toNode p.render_target

/-- All stages, in their order. -/
def Stage.all : List Stage := [scan, parse, transform, generate]

theorem stageNotes_no_tokens (last : Stage) (hs : scan source = .error f) :
    StageNotes last source [] [] where
  ordered := .nil
  mem_iff stage := by simp [not_completes hs]
  noted := .nil

theorem stageNotes_no_program (last : Stage) (hs : scan source = .ok ts)
    (hp : parse ts = .error f) :
    StageNotes last source [.scan] [.scanned ts.length source.length] where
  ordered := List.pairwise_singleton _ _
  mem_iff stage := by
    rw [List.mem_singleton]
    constructor
    · rintro rfl
      exact ⟨Stage.scan_le last, _, .scan hs⟩
    · rintro ⟨-, note, h⟩
      exact eq_scan_of_completes hs hp h
  noted := .cons (.scan hs) .nil

theorem stageNotes_program (last : Stage) (hs : scan source = .ok ts) (hp : parse ts = .ok p) :
    StageNotes last source (Stage.all.filter (· ≤ last))
      ((Stage.all.filter (· ≤ last)).map (p.stageNote source ts)) where
  ordered := List.Pairwise.sublist List.filter_sublist (by decide)
  mem_iff stage := by
    have hmem : stage ∈ Stage.all := by cases stage <;> decide
    rw [List.mem_filter, decide_eq_true_iff]
    exact ⟨fun h => ⟨h.2, _, p.completes hs hp stage⟩, fun h => ⟨hmem, h.1⟩⟩
  noted := by
    rw [List.forall₂_map_right_iff, List.forall₂_same]
    exact fun stage _ => p.completes hs hp stage

/-- **A compilation notes each stage that it completes**, once and in order. -/
theorem compileNoting_notes (last : Stage) (filename : String) (source : Text) :
    ∃ stages notes, StageNotes last source stages notes ∧
      (compileNoting last filename source).notes = .compiling filename last :: notes := by
  unfold compileNoting
  cases hs : scan source with
  | error f => exact ⟨_, _, stageNotes_no_tokens last hs, rfl⟩
  | ok ts =>
    cases hp : parse ts with
    | error f =>
      refine ⟨_, _, stageNotes_no_program last hs hp, ?_⟩
      simp only [parseStage, hp]
      split <;> rfl
    | ok p =>
      refine ⟨_, _, stageNotes_program last hs hp, ?_⟩
      simp only [hp, parseStage, transformStage, generateStage, p.run_toNode, p.render_target]
      cases last <;> rfl

end

/-! ## What a run notes -/

/-- What is asked for of a source is written to a file. -/
structure Writes (s : Store) (i : Invocation) (source : Text) (target : String) (text : Text)
    (s' : Store) : Prop where
  output : i.output = some target
  selected : i.selected source = .ok text
  write : s.write (normalizePath target) (Utf8.encode text) = .ok s'

/-- **The notes of a command**: none before its input is read as a text, then that it has been read,
that it is compiled, what the stages come to, and whether a file has been written. -/
inductive Notes (s s' : Store) (i : Invocation) (input : Input) : List Note → Prop
  /-- The input is no text. -/
  | unread {e : Utf8.DecodeError} (he : input.text = .error e) : Notes s s' i input []
  /-- The input is read, and no file is written. -/
  | kept {source : Text} {stages : List Stage} {notes : List Note} (hs : input.text = .ok source)
      (hn : StageNotes i.lastStage source stages notes)
      (hw : ∀ target text s', ¬ Writes s i source target text s') :
      Notes s s' i input
        (.read source.length input.name :: .compiling input.name i.lastStage :: notes)
  /-- The input is read, and what is asked for of it is written. -/
  | written {source : Text} {stages : List Stage} {notes : List Note} {target : String}
      {text : Text} (hs : input.text = .ok source) (hn : StageNotes i.lastStage source stages notes)
      (hw : Writes s i source target text s') :
      Notes s s' i input
        (.read source.length input.name :: .compiling input.name i.lastStage ::
          (notes ++ [.wrote text.length (normalizePath target)]))

/-- The notes of a run that leaves the store `s'`: those of its command, and none if the command is
not called. -/
inductive RunNotes (io : Streams) (s s' : Store) (stdin : Bytes) (arguments : List String) :
    List Note → Prop
  | uncalled (h : ∀ q input, ¬ Starts io s stdin arguments q input) :
      RunNotes io s s' stdin arguments []
  | called {q : Request} {input : Input} {notes : List Note}
      (h : Starts io s stdin arguments q input) (hn : Notes s s' q.toInvocation input notes) :
      RunNotes io s s' stdin arguments notes

/-! ## Verbose commands -/

/-- **A run and the same run with notes**: they differ in what is printed to the error stream, and
in that by the lines of the notes and a trace header, if the first run has none itself. -/
structure Outcome.AddsNotes (notes : List Note) (quiet : Prop) (o o' : Outcome) : Prop where
  code : o'.code = o.code
  stdout : o'.stdout = o.stdout
  store : o'.store = o.store
  stderr : quiet → o'.stderr =
    noteLines notes ++ o.stderr ++
      (if o.code = 3 then "Traceback (most recent call last):\n" else "")

section

variable {io : Streams} {f : Frontend} {s : Store} {stdin : Bytes} {arguments : List String}
  {q : Request} {i : Invocation} {input : Input} {source : Text}

/-- The same invocation for a verbose run. -/
def Invocation.verbosely (i : Invocation) : Invocation :=
  { i with verbose := true }

/-- Reading and compiling are noted, and then the stages. -/
theorem Invocation.process_notes (i : Invocation) (hs : input.text = .ok source) :
    ∃ stages notes, StageNotes i.lastStage source stages notes ∧ (i.process input).notes =
      .read source.length input.name :: .compiling input.name i.lastStage :: notes := by
  obtain ⟨stages, notes, hnotes, hcompile⟩ :=
    compileNoting_notes i.lastStage input.name source
  refine ⟨stages, notes, hnotes, ?_⟩
  unfold process
  rw [hs]
  simp only [hcompile, Noted.after]
  -- making the result into what is asked for notes nothing
  cases (compileNoting i.lastStage input.name source).result with
  | error f => exact List.append_nil _
  | ok r => cases hselect : i.select r <;> simp [hselect, Noted.quiet]

theorem Invocation.process_notes_undecodable (i : Invocation) {e : Utf8.DecodeError}
    (he : input.text = .error e) : (i.process input).notes = [] := by
  unfold process
  rw [he]
  rfl

theorem Notes.of_process_kept {s' : Store} (hs : input.text = .ok source)
    (hw : ∀ target text s', ¬ Writes s i source target text s') :
    Notes s s' i input (i.process input).notes := by
  obtain ⟨stages, notes, hn, hprocess⟩ := i.process_notes hs
  rw [hprocess]
  exact .kept hs hn hw

theorem Notes.of_process_written {s' : Store} (hs : input.text = .ok source) {target : String}
    {text : Text} (hw : Writes s i source target text s') :
    Notes s s' i input
      ((i.process input).notes ++ [.wrote text.length (normalizePath target)]) := by
  obtain ⟨stages, notes, hn, hprocess⟩ := i.process_notes hs
  rw [hprocess]
  exact .written hs hn hw

theorem Failure.report_verbose (failure : Failure) (echo : String → String) :
    failure.report echo true = failure.report echo false ++
      (if failure.status.code = 3 then "Traceback (most recent call last):\n" else "") := by
  unfold Failure.report
  cases failure.status <;> simp [ExitStatus.code, traceHeader]

/-- A run that notes nothing is not changed. -/
theorem Outcome.AddsNotes.same {quiet : Prop} {o : Outcome} (h : o.code ≠ 3) :
    Outcome.AddsNotes [] quiet o o where
  code := rfl
  stdout := rfl
  store := rfl
  stderr _ := by simp [noteLines, h]

theorem Invocation.fail_addsNotes {quiet : Prop} (hquiet : quiet → i.verbose = false) (s : Store)
    (notes : List Note) (failure : Failure) :
    Outcome.AddsNotes notes quiet (i.fail f s notes failure)
      (i.verbosely.fail f s notes failure) where
  code := rfl
  stdout := rfl
  store := rfl
  stderr h := by
    simp [fail, conclude, verbosely, hquiet h, failure.report_verbose, showNotes_eq,
      String.append_assoc]

theorem Invocation.conclude_addsNotes {quiet : Prop} (hquiet : quiet → i.verbose = false)
    (s : Store) (notes : List Note) (stdout stderr : String) :
    Outcome.AddsNotes notes quiet (i.conclude s .success notes stdout stderr)
      (i.verbosely.conclude s .success notes stdout stderr) where
  code := rfl
  stdout := rfl
  store := rfl
  stderr h := by simp [conclude, verbosely, hquiet h, showNotes_eq, ExitStatus.code]

/-- **A verbose command goes the same way and adds its notes.** -/
theorem Executes.addsNotes {o : Outcome} (h : Executes f s i input o) {quiet : Prop}
    (hquiet : quiet → i.verbose = false) :
    ∃ notes, Notes s o.store i input notes ∧
      Outcome.AddsNotes notes quiet o (i.verbosely.execute f s input) := by
  cases h with
  | undecodable he =>
    have hnotes : Notes s s i input (i.process input).notes := by
      rw [i.process_notes_undecodable he]
      exact .unread he
    have hv : Executes f s i.verbosely input _ := .undecodable he
    rw [hv.execute_eq]
    exact ⟨_, hnotes, i.fail_addsNotes hquiet s _ _⟩
  | faulty hs hf =>
    have hv : Executes f s i.verbosely input _ := .faulty hs hf
    have hnotes : Notes s s i input (i.process input).notes :=
      .of_process_kept hs fun _ _ _ hw => by cases hf.symm.trans hw.selected
    rw [hv.execute_eq]
    exact ⟨_, hnotes, i.fail_addsNotes hquiet s _ _⟩
  | shown hs ht ho =>
    have hv : Executes f s i.verbosely input _ := .shown hs ht ho
    have hnotes : Notes s s i input (i.process input).notes :=
      .of_process_kept hs fun _ _ _ hw => by cases ho.symm.trans hw.output
    rw [hv.execute_eq]
    exact ⟨_, hnotes, i.conclude_addsNotes hquiet s _ _ _⟩
  | unwritten hs ht ho hw =>
    have hv : Executes f s i.verbosely input _ := .unwritten hs ht ho hw
    have hnotes : Notes s s i input (i.process input).notes := by
      refine .of_process_kept hs fun target' text' s' hw' => ?_
      obtain rfl := Option.some.inj (ho.symm.trans hw'.output)
      obtain rfl := Except.ok.inj (ht.symm.trans hw'.selected)
      cases hw.symm.trans hw'.write
    rw [hv.execute_eq]
    exact ⟨_, hnotes, i.fail_addsNotes hquiet s _ _⟩
  | @written source text target s' hs ht ho hw =>
    have hv : Executes f s i.verbosely input _ := .written hs ht ho hw
    have hnotes : Notes s s' i input _ := .of_process_written hs ⟨ho, ht, hw⟩
    rw [hv.execute_eq]
    exact ⟨_, hnotes, i.conclude_addsNotes hquiet s' _ _ _⟩

/-! ## Verbose runs -/

/-- A verbose run is asked for. -/
def AsksVerbose (arguments : List String) : Prop :=
  ∃ q, Reads arguments q ∧ q.verbose = true

/-- The input of the same run, but verbose. -/
theorem Starts.verbosely (h : Starts io s stdin arguments q input) :
    Starts io s stdin ("-v" :: arguments) { q with verbose := true } input where
  arguments := h.arguments.verbosely
  notice := h.notice
  input := by
    cases h.input with
    | piped hout hq => exact .piped hout hq
    | file hout hq hname hread => exact .file hout hq hname hread

theorem Starts.quiet (h : Starts io s stdin arguments q input) (hquiet : ¬ AsksVerbose arguments) :
    q.verbose = false := by
  rw [← Bool.not_eq_true]
  exact fun hverbose => hquiet ⟨q, h.arguments, hverbose⟩

/-- What is shown or refused is the same with the option in front. -/
theorem start_verbosely (hf : f.Lawful io)
    (h : ∀ q input, ¬ Starts io s stdin arguments q input) :
    f.start s stdin ("-v" :: arguments) = f.start s stdin arguments := by
  rcases reads_or_badOption arguments with ⟨q, hq⟩ | hbad
  · refine hf.told s stdin hq.verbosely hq rfl rfl rfl ?_
    by_cases hn : q.notice = none
    · rcases opens_or_unopened io s stdin q with ⟨input, hopens⟩ | hunopened
      · exact absurd ⟨hq, hn, hopens⟩ (h q input)
      · exact .inr hunopened
    · exact .inl hn
  · exact hf.behind s stdin (begins_verbose arguments) hbad

/-- A run that does not get to its command is the same with the option in front. -/
theorem run_verbosely_of_not_starts (hf : f.Lawful io)
    (h : ∀ q input, ¬ Starts io s stdin arguments q input) :
    run f s stdin ("-v" :: arguments) = run f s stdin arguments ∧
      (run f s stdin arguments).code ≠ 3 := by
  constructor
  · rw [run, run, start_verbosely hf h]
  · have hcourse := run_course hf s stdin arguments
    generalize run f s stdin arguments = o at hcourse
    cases hcourse with
    | refused _ => simp
    | noticed _ _ => simp
    | unopened _ _ _ hcode =>
      rcases hcode with rfl | ⟨rfl, -⟩ <;> simp
    | called hstarts _ => exact absurd hstarts (h _ _)

/-- **A verbose run only adds to the error stream.** With `-v` in front of its arguments, a run ends
with the same status, prints the same to its standard output and leaves the same files. If the
arguments do not ask for a verbose run themselves, its error stream is that of the run without `-v`
behind a line for each of its notes, with the header of a trace at the end if the status is 3.
Nothing is noted before the input is read as a text. Then it is noted that the input has been read
and is compiled; behind that, each stage that is completed, once and in order; and last that a file
has been written, if one has been. -/
theorem run_verbosely (io : Streams) (f : Frontend) (hf : f.Lawful io) (s : Store) (stdin : Bytes)
    (arguments : List String) :
    ∃ notes, RunNotes io s (run f s stdin arguments).store stdin arguments notes ∧
      Outcome.AddsNotes notes (¬ AsksVerbose arguments) (run f s stdin arguments)
        (run f s stdin ("-v" :: arguments)) := by
  by_cases h : ∃ q input, Starts io s stdin arguments q input
  · obtain ⟨q, input, h⟩ := h
    obtain ⟨notes, hnotes, hadds⟩ :=
      (q.toInvocation.execute_course f s input).addsNotes h.quiet
    rw [h.run_eq hf, h.verbosely.run_eq hf]
    exact ⟨notes, .called h hnotes, hadds⟩
  · have hnot : ∀ q input, ¬ Starts io s stdin arguments q input := fun q input hstarts =>
      h ⟨q, input, hstarts⟩
    obtain ⟨hsame, hcode⟩ := run_verbosely_of_not_starts hf hnot
    rw [hsame]
    exact ⟨[], .uncalled hnot, .same hcode⟩

/-- An output path behind a file, with the standard input as source: a trace is announced. -/
theorem run_verbosely_below_file :
    (Frontend.standard {}).Lawful {} ∧ ¬ AsksVerbose ["-o", "p/x"] ∧
    (∃ notes,
      RunNotes {} callStore (run (Frontend.standard {}) callStore [0x31] ["-o", "p/x"]).store [0x31]
        ["-o", "p/x"] notes ∧
      (run (Frontend.standard {}) callStore [0x31] ["-v", "-o", "p/x"]).stderr =
        noteLines notes ++ "Internal error: [Errno 20] Not a directory: 'p/x'\n" ++
          "Traceback (most recent call last):\n") ∧
    (run (Frontend.standard {}) callStore [0x31] ["-v", "-o", "p/x"]).stderr =
      "DEBUG: Read 1 characters from <stdin>
DEBUG: Compiling <stdin> (stop after GENERATE)
DEBUG: Scanned 1 tokens from 1 characters
DEBUG: Parsed 1 top-level expressions
DEBUG: Transformed 1 top-level expressions
DEBUG: Generated 1 characters
Internal error: [Errno 20] Not a directory: 'p/x'
Traceback (most recent call last):
" := by
  have hf : (Frontend.standard {}).Lawful {} := standard_lawful {}
  have hreads : Reads ["-o", "p/x"] { output := some "p/x" } := .item (begins_output "p/x" []) .nil
  have hquiet : ¬ AsksVerbose ["-o", "p/x"] := by
    rintro ⟨q, hq, hverbose⟩
    obtain rfl := hq.unique hreads
    cases hverbose
  have hcode : (run (Frontend.standard {}) callStore [0x31] ["-o", "p/x"]).code = 3 := by
    decide +kernel
  have hreport : (run (Frontend.standard {}) callStore [0x31] ["-o", "p/x"]).stderr =
      "Internal error: [Errno 20] Not a directory: 'p/x'\n" := by decide +kernel
  obtain ⟨notes, hnotes, hadds⟩ :=
    run_verbosely {} (Frontend.standard {}) hf callStore [0x31] ["-o", "p/x"]
  have hstderr := hadds.stderr hquiet
  rw [if_pos hcode, hreport] at hstderr
  exact ⟨hf, hquiet, ⟨notes, hnotes, hstderr⟩, by decide +kernel⟩

end

end CallNotation
