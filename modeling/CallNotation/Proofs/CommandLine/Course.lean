import CallNotation.Proofs.CommandLine.Frontend
import CallNotation.Proofs.Compile.Language

/-!
# The ways a run can go

Whatever its front end is, a command that is called goes in one of five ways (`Executes`). What it
is asked for depends on the text of its input alone (`Invocation.selected`), and is a list of
tokens, an outline or an output. A run goes in one of these ways if it starts (`Starts`); otherwise
it ends in front of the command, with a refusal or a notice. What is to be shown of all runs is
shown by these cases.

Results:
* `Invocation.process_result`: what the input of a command is made into.
* **`Invocation.execute_course`**, `Executes.execute_eq`: a command goes in one of the ways listed,
  and each way is that of one command at most.
* **`run_course`**: every run goes in one of the ways listed, where its front end is lawful.
-/

namespace CallNotation

/-! ## What is asked for -/

namespace Invocation

/-- What is asked for of a source: its tokens, the outline of its program or its output. -/
def selected (i : Invocation) (source : Text) : Except Fault Text :=
  if i.tokens then (scan source).map tokenDump
  else if i.outline then
    match scan source with
    | .error f => .error f
    | .ok ts =>
      match parse ts with
      | .error f => .error f
      | .ok p => p.toNode.outline
  else compile source

/-- What is asked for is found in the result of the stages that are run for it. -/
theorem select_compileSource (i : Invocation) (source : Text) (filename : String) :
    ((⟨i.lastStage⟩ : Compiler).compileSource source filename).bind i.select =
      i.selected source := by
  rw [compileSource_eq]
  cases htokens : i.tokens with
  | true =>
    have hlast : i.lastStage = .scan := by simp [lastStage, htokens]
    simp only [hlast, if_neg (show ¬ Stage.parse ≤ Stage.scan by decide)]
    cases hs : scan source with
    | error f => simp [selected, htokens, hs, Except.bind, Except.map]
    | ok ts => simp [selected, select, htokens, hs, Except.bind, Except.map]
  | false =>
    cases houtline : i.outline with
    | true =>
      have hlast : i.lastStage = .parse := by simp [lastStage, htokens, houtline]
      simp only [hlast, if_pos (show Stage.parse ≤ Stage.parse by decide)]
      cases hs : scan source with
      | error f => simp [selected, htokens, houtline, hs, Except.bind]
      | ok ts =>
        cases hp : parse ts with
        | error f => simp [selected, htokens, houtline, hs, hp, Except.bind]
        | ok p => simp [selected, select, htokens, houtline, hs, hp, Except.bind, Result.upTo]
    | false =>
      have hlast : i.lastStage = .generate := by simp [lastStage, htokens, houtline]
      have hgenerate : Stage.generate ≤ Stage.generate := by decide
      simp only [hlast, if_pos (show Stage.parse ≤ Stage.generate by decide)]
      cases hs : scan source with
      | error f => simp [selected, htokens, houtline, compile_eq, hs, Except.bind]
      | ok ts =>
        cases hp : parse ts with
        | error f => simp [selected, htokens, houtline, compile_eq, hs, hp, Except.bind]
        | ok p =>
          simp [selected, select, htokens, houtline, compile_eq, hs, hp, Except.bind, Result.upTo,
            hgenerate]

/-- What the input of a run is made into. -/
theorem process_result (i : Invocation) (input : Input) :
    (i.process input).result =
      match input.text with
      | .error e => .error (.undecodable e)
      | .ok source => (i.selected source).mapError .fault := by
  unfold process
  cases input.text with
  | error e => rfl
  | ok source =>
    simp only
    rw [← i.select_compileSource source input.name, Compiler.compileSource]
    cases (compileNoting i.lastStage input.name source).result with
    | error f => rfl
    | ok r =>
      cases hselect : i.select r with
      | error f => simp [hselect, Noted.after, Noted.quiet, Except.bind, Except.mapError]
      | ok t => simp [hselect, Noted.after, Noted.quiet, Except.bind, Except.mapError]

end Invocation

/-! ## The ways a command can go -/

/-- **The ways a command can go** that is called with an input, each with what it leaves behind. -/
inductive Executes (f : Frontend) (s : Store) (i : Invocation) (input : Input) : Outcome → Prop
  /-- The input is no text. -/
  | undecodable {e : Utf8.DecodeError} (he : input.text = .error e) :
      Executes f s i input (i.fail f s (i.process input).notes (.undecodable e))
  /-- The text is not what it is taken for. -/
  | faulty {source : Text} {fault : Fault} (hs : input.text = .ok source)
      (hf : i.selected source = .error fault) :
      Executes f s i input (i.fail f s (i.process input).notes (.fault fault))
  /-- What is asked for is shown. -/
  | shown {source text : Text} (hs : input.text = .ok source) (ht : i.selected source = .ok text)
      (ho : i.output = none) :
      Executes f s i input
        (i.conclude s .success (i.process input).notes (f.echo .output (String.ofList text)) "")
  /-- What is asked for cannot be written. -/
  | unwritten {source text : Text} {target : String} {fault : FileFault}
      (hs : input.text = .ok source) (ht : i.selected source = .ok text)
      (ho : i.output = some target)
      (hw : s.write (normalizePath target) (Utf8.encode text) = .error fault) :
      Executes f s i input
        (i.fail f s (i.process input).notes (.file fault (normalizePath target)))
  /-- What is asked for is written. -/
  | written {source text : Text} {target : String} {s' : Store} (hs : input.text = .ok source)
      (ht : i.selected source = .ok text) (ho : i.output = some target)
      (hw : s.write (normalizePath target) (Utf8.encode text) = .ok s') :
      Executes f s i input
        (i.conclude s' .success
          ((i.process input).notes ++ [.wrote text.length (normalizePath target)]) ""
          (f.echo .error s!"Compiled {input.name} -> {normalizePath target}"))

section

variable {f : Frontend} {s : Store} {i : Invocation} {input : Input}

/-- What comes of a command. -/
theorem Invocation.execute_eq (i : Invocation) (f : Frontend) (s : Store) (input : Input) :
    i.execute f s input =
      match input.text with
      | .error e => i.fail f s (i.process input).notes (.undecodable e)
      | .ok source =>
        match i.selected source, i.output with
        | .error fault, _ => i.fail f s (i.process input).notes (.fault fault)
        | .ok text, none =>
          i.conclude s .success (i.process input).notes (f.echo .output (String.ofList text)) ""
        | .ok text, some target =>
          match s.write (normalizePath target) (Utf8.encode text) with
          | .error fault =>
            i.fail f s (i.process input).notes (.file fault (normalizePath target))
          | .ok s' =>
            i.conclude s' .success
              ((i.process input).notes ++ [.wrote text.length (normalizePath target)]) ""
              (f.echo .error s!"Compiled {input.name} -> {normalizePath target}") := by
  unfold execute
  simp only [i.process_result input]
  cases input.text with
  | error e => rfl
  | ok source =>
    cases ht : i.selected source with
    | error fault => simp only [ht, Except.mapError]
    | ok text =>
      cases ho : i.output with
      | none => simp only [ht, Except.mapError]
      | some target =>
        unfold Store.writeText
        simp only [ht, Except.mapError]
        cases s.write (normalizePath target) (Utf8.encode text) <;> rfl

/-- **Every command goes in one of the ways listed.** -/
theorem Invocation.execute_course (i : Invocation) (f : Frontend) (s : Store) (input : Input) :
    Executes f s i input (i.execute f s input) := by
  rw [i.execute_eq]
  cases hs : input.text with
  | error e => exact .undecodable hs
  | ok source =>
    cases ht : i.selected source with
    | error fault => simpa only [ht] using Executes.faulty hs ht
    | ok text =>
      cases ho : i.output with
      | none => simpa only [ht] using Executes.shown hs ht ho
      | some target =>
        simp only [ht]
        cases hw : s.write (normalizePath target) (Utf8.encode text) with
        | error fault => exact .unwritten hs ht ho hw
        | ok s' => exact .written hs ht ho hw

/-- **Each way is that of one command.** -/
theorem Executes.execute_eq {o : Outcome} (h : Executes f s i input o) :
    i.execute f s input = o := by
  rw [i.execute_eq]
  cases h with
  | undecodable he => rw [he]
  | faulty hs hf => simp only [hs, hf]
  | shown hs ht ho => simp only [hs, ht, ho]
  | unwritten hs ht ho hw => simp only [hs, ht, ho, hw]
  | written hs ht ho hw => simp only [hs, ht, ho, hw]

end

/-! ## The ways a run can go -/

/-- **A run gets to its command**, with a request and an input. -/
structure Starts (io : Streams) (s : Store) (stdin : Bytes) (arguments : List String) (q : Request)
    (input : Input) : Prop where
  /-- What the arguments ask for. -/
  arguments : Reads arguments q
  /-- No notice is asked for. -/
  notice : q.notice = none
  /-- The input that is opened. -/
  input : q.Opens io s stdin input

/-- **The ways a run can go**, each with what the run leaves behind. -/
inductive Course (io : Streams) (f : Frontend) (s : Store) (stdin : Bytes)
    (arguments : List String) : Outcome → Prop
  /-- An option is bad. -/
  | refused {report : String} (h : BadOption arguments) :
      Course io f s stdin arguments { code := 2, stderr := report, store := s }
  /-- A notice is shown. -/
  | noticed {q : Request} {notice : String} (h : Reads arguments q) (hn : q.notice ≠ none) :
      Course io f s stdin arguments { code := 0, stdout := notice, store := s }
  /-- No input is opened. -/
  | unopened {q : Request} {code : Nat} {report : String} (h : Reads arguments q)
      (hn : q.notice = none) (hu : q.Unopened s)
      (hcode : code = 2 ∨ code = 1 ∧ ∃ path ∈ q.paths, '\x00' ∈ path.toList) :
      Course io f s stdin arguments { code, stderr := report, store := s }
  /-- The command is called. -/
  | called {q : Request} {input : Input} {o : Outcome} (h : Starts io s stdin arguments q input)
      (he : Executes f s q.toInvocation input o) : Course io f s stdin arguments o

section

variable {io : Streams} {f : Frontend} {s : Store} {stdin : Bytes} {arguments : List String}
  {q : Request} {input : Input}

theorem Starts.start (hf : f.Lawful io) (h : Starts io s stdin arguments q input) :
    f.start s stdin arguments = .called q.toInvocation input :=
  hf.opens h.arguments h.notice h.input

/-- What comes of a run that gets to its command. -/
theorem Starts.run_eq (hf : f.Lawful io) (h : Starts io s stdin arguments q input) :
    run f s stdin arguments = q.toInvocation.execute f s input := by
  rw [run, h.start hf]

/-- A run goes the way of its command. -/
theorem Starts.goes {o : Outcome} (hf : f.Lawful io) (h : Starts io s stdin arguments q input)
    (he : Executes f s q.toInvocation input o) : run f s stdin arguments = o :=
  (h.run_eq hf).trans he.execute_eq

/-- A run fails if its input is no text. -/
theorem Starts.code_of_undecodable {e : Utf8.DecodeError} (hf : f.Lawful io)
    (h : Starts io s stdin arguments q input) (he : input.text = .error e) :
    (run f s stdin arguments).code = 2 := by
  rw [h.goes hf (.undecodable he)]
  rfl

/-- A run fails if its input cannot be opened. -/
theorem Reads.code_of_unopened (hf : f.Lawful io) (h : Reads arguments q) (hn : q.notice = none)
    (hu : q.Unopened s) (hnull : ∀ path ∈ q.paths, '\x00' ∉ path.toList) :
    (run f s stdin arguments).code = 2 := by
  obtain ⟨code, report, hstart, hcode⟩ := hf.refuses s stdin h hn hu
  rw [run, hstart]
  rcases hcode with hcode | ⟨-, path, hpath, hmem⟩
  · exact hcode
  · exact absurd hmem (hnull path hpath)

theorem Starts.unique {q' : Request} {input' : Input} (h : Starts io s stdin arguments q input)
    (h' : Starts io s stdin arguments q' input') : q = q' ∧ input = input' := by
  obtain rfl := h.arguments.unique h'.arguments
  have hopen := Request.prepare_eq_ok_iff.mpr h.input
  rw [Request.prepare_eq_ok_iff.mpr h'.input] at hopen
  exact ⟨rfl, (Except.ok.inj hopen).symm⟩

/-- **Every run goes in one of the ways listed.** -/
theorem run_course (hf : f.Lawful io) (s : Store) (stdin : Bytes) (arguments : List String) :
    Course io f s stdin arguments (run f s stdin arguments) := by
  rcases reads_or_badOption arguments with ⟨q, hq⟩ | hbad
  · by_cases hn : q.notice = none
    · rcases opens_or_unopened io s stdin q with ⟨input, hopens⟩ | hunopened
      · have h : Starts io s stdin arguments q input := ⟨hq, hn, hopens⟩
        rw [h.run_eq hf]
        exact .called h (q.toInvocation.execute_course f s input)
      · obtain ⟨code, report, hstart, hcode⟩ := hf.refuses s stdin hq hn hunopened
        rw [run, hstart]
        exact .unopened hq hn hunopened hcode
    · obtain ⟨notice, hstart⟩ := hf.notice s stdin hq hn
      rw [run, hstart]
      exact .noticed hq hn
  · obtain ⟨report, hstart⟩ := hf.options s stdin hbad
    rw [run, hstart]
    exact .refused hbad

end

/-! ## A store to run on -/

/-- A working directory with a file in it that holds a call. -/
def callStore : Store where
  entries := [([['w']], .directory {}), ([['w'], ['p']], .file {} [0x28, 0x66, 0x29])]
  working := [['w']]

theorem callStore_unrestricted : callStore.Unrestricted :=
  Store.unrestricted_of_entries rfl (by decide)

end CallNotation
