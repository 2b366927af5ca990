import CallNotation.Proofs.CommandLine.Course
import CallNotation.Proofs.Expr.Outline
import CallNotation.Proofs.Store.Sources
import CallNotation.Proofs.Text.Styling

/-!
# The command line and `compileFile`

What is in a file is compiled by `compileFile`, by a run that names the file and by a run that is
given its content as standard input. All of them come to the same, and so do a compilation and a
run that write to the same file. There are three limits to this. What a run prints goes out without
its style codes, unless a terminal shows it. The standard input may keep its line ends, which a file
never does. And a run refuses an output file that is there and may not be read, although it could be
written to.

Results:
* `Reads.piped`, `Reads.byName`: what the command lines that are looked at ask for.
* `FileRun.starts`: these runs get to their command, with what is in the file.
* `Starts.code_eq_zero_iff`: such a run succeeds just if there is what it is asked for.
* **`run_agrees`**: runs against `compileFile`.
-/

namespace CallNotation

variable {io : Streams} {f : Frontend} {s s' : Store} {stdin content : Bytes}
  {arguments : List String}

/-! ## Command lines -/

/-- The options that ask for another text than the output. -/
def dumpOptions : List String := ["--tokens", "--ast"]

/-- The arguments that name an output file, if there is one to be named. -/
def outputArguments : Option String → List String
  | none => []
  | some target => ["-o", target]

/-- What is asked for by options of `dumpOptions`, of some operands and for some output file. -/
def Request.requesting (options operands : List String) (target : Option String) : Request :=
  { tokens := options.contains "--tokens", outline := options.contains "--ast", operands,
    output := target }

theorem Reads.dumps {options rest : List String} {q : Request} (h : options ⊆ dumpOptions)
    (hr : Reads rest q) :
    Reads (options ++ rest) { q with
      tokens := options.contains "--tokens" || q.tokens
      outline := options.contains "--ast" || q.outline } := by
  induction options with
  | nil => exact hr
  | cons option options ih =>
    obtain ⟨hoption, hoptions⟩ := List.cons_subset.mp h
    rcases List.mem_cons.mp hoption with rfl | hoption
    · simpa using Reads.item (.name .tokens) (ih hoptions)
    · obtain rfl := List.mem_singleton.mp hoption
      simpa using Reads.item (.name .outline) (ih hoptions)

theorem reads_outputArguments (target : Option String) :
    Reads (outputArguments target) { output := target } := by
  cases target with
  | none => exact .nil
  | some target => exact .item (begins_output target []) .nil

/-- **What is asked for without an operand.** -/
theorem Reads.piped {options : List String} (h : options ⊆ dumpOptions)
    (target : Option String) :
    Reads (options ++ outputArguments target) (.requesting options [] target) := by
  simpa [Request.requesting] using (reads_outputArguments target).dumps h

/-- **What is asked for of an operand**, with options in front of it and behind. -/
theorem Reads.byName (front back : List String) {path : String}
    (hpath : path.toList.head? ≠ some '-') (h : front ++ back ⊆ dumpOptions)
    (target : Option String) :
    Reads (front ++ path :: (back ++ outputArguments target))
      (.requesting (front ++ back) [path] target) := by
  obtain ⟨hfront, hback⟩ := List.append_subset.mp h
  have hr := (reads_outputArguments target).dumps hback
  simpa [Request.requesting] using (Reads.item (.operand (.inr hpath)) hr).dumps hfront

/-! ## Runs -/

section

variable {q : Request} {input : Input} {source : Text}

/-- Tokens are to be had of a text that can be scanned, an outline of one that can be parsed. -/
theorem Invocation.selected_succeeds_iff {i : Invocation} :
    (∃ text, i.selected source = .ok text) ↔
      if i.tokens then ∃ ts, scan source = .ok ts
      else if i.outline then ∃ ts p, scan source = .ok ts ∧ parse ts = .ok p
      else ∃ text, compile source = .ok text := by
  unfold selected
  cases i.tokens with
  | true =>
    simp only [if_true]
    cases scan source <;> simp [Except.map]
  | false =>
    simp only [Bool.false_eq_true, if_false]
    cases i.outline with
    | true =>
      simp only [if_true]
      cases hs : scan source with
      | error f => simp
      | ok ts =>
        cases hp : parse ts with
        | error f => simp [hp]
        | ok p =>
          simp [hp, p.outline_toNode]
    | false => simp

theorem Starts.prints {text : Text} (hf : f.Lawful io)
    (h : Starts io s stdin arguments q input) (hs : input.text = .ok source)
    (ht : q.selected source = .ok text) (ho : q.output = none) :
    (run f s stdin arguments).code = 0 ∧
      (run f s stdin arguments).stdout = f.echo .output (String.ofList text) := by
  rw [h.goes hf (.shown hs ht ho)]
  exact ⟨rfl, rfl⟩

theorem Starts.saves {text : Text} {target : String} (hf : f.Lawful io)
    (h : Starts io s stdin arguments q input) (hs : input.text = .ok source)
    (ht : q.selected source = .ok text) (ho : q.output = some target)
    (hw : s.write (normalizePath target) (Utf8.encode text) = .ok s') :
    (run f s stdin arguments).code = 0 ∧ (run f s stdin arguments).store = s' := by
  rw [h.goes hf (.written hs ht ho hw)]
  exact ⟨rfl, rfl⟩

theorem Starts.blames {fault : Fault} (hf : f.Lawful io)
    (h : Starts io s stdin arguments q input) (hs : input.text = .ok source)
    (hfault : q.selected source = .error fault) (hv : q.verbose = false) :
    (run f s stdin arguments).code = 1 ∧
      (run f s stdin arguments).stderr = f.echo .error fault.describe := by
  rw [h.goes hf (.faulty hs hfault)]
  refine ⟨rfl, ?_⟩
  unfold Invocation.fail Invocation.conclude
  simp only [hv, Bool.false_eq_true, if_false, String.empty_append]
  rfl

/-- **A run succeeds just if there is what it is asked for**, as far as that can be written. -/
theorem Starts.code_eq_zero_iff (hf : f.Lawful io) (h : Starts io s stdin arguments q input)
    (hs : input.text = .ok source)
    (hw : ∀ target ∈ q.output, ∃ bytes s', s.write (normalizePath target) bytes = .ok s') :
    (run f s stdin arguments).code = 0 ↔ ∃ text, q.selected source = .ok text := by
  cases ht : q.selected source with
  | error fault =>
    rw [h.goes hf (.faulty hs ht)]
    simp [Invocation.fail, Invocation.conclude, Failure.status, ExitStatus.code]
  | ok text =>
    refine ⟨fun _ => ⟨text, rfl⟩, fun _ => ?_⟩
    cases ho : q.output with
    | none => exact (h.prints hf hs ht ho).1
    | some target =>
      obtain ⟨bytes, written, hw⟩ := hw target ho
      obtain ⟨s', hw⟩ := Store.write_of_write hw (Utf8.encode text)
      exact (h.saves hf hs ht ho hw).1

end

/-! ## Files -/

section

variable {path : String}

theorem Store.compiled_of_read (h : s.read path = .ok content) :
    s.compiled path =
      match Text.ofFile content with
      | .error e => .error (.undecodable e)
      | .ok source => (compile source).mapError .fault := by
  unfold compiled
  rw [readSource_of_read (read_normalizePath h)]
  cases Text.ofFile content <;> rfl

theorem Store.compiled_eq_ok_iff (h : s.read path = .ok content) {t : Text} :
    s.compiled path = .ok t ↔
      ∃ source, Text.ofFile content = .ok source ∧ compile source = .ok t := by
  rw [compiled_of_read h]
  cases Text.ofFile content with
  | error e => simp
  | ok source => cases hc : compile source <;> simp [hc, Except.mapError]

theorem Store.compiled_eq_fault_iff (h : s.read path = .ok content) {fault : Fault} :
    s.compiled path = .error (.fault fault) ↔
      ∃ source, Text.ofFile content = .ok source ∧ compile source = .error fault := by
  rw [compiled_of_read h]
  cases Text.ofFile content with
  | error e => simp
  | ok source => cases hc : compile source <;> simp [hc, Except.mapError]

/-- A file that may not be read is not compiled. -/
theorem Store.readable_of_compiled {rights : Rights}
    (hfile : s.find path = .ok (.file rights content))
    (h : s.compiled path ≠ .error (.file .denied (normalizePath path))) :
    rights.readable = true := by
  rw [← Bool.not_eq_false]
  intro hno
  refine h ?_
  unfold compiled readSource
  simp only [read_of_find (find_normalizePath hfile), hno]
  rfl

end

/-! ## Runs on a file -/

/-- The standard input is read as a file is: it unifies line ends, or there are none to unify. -/
def ReadsAlike (io : Streams) (content : Bytes) : Prop :=
  io.newlines = .unified ∨ ∀ t, Utf8.decode content = .ok t → '\r' ∉ t

theorem ReadsAlike.read_eq (h : ReadsAlike io content) :
    io.newlines.read content = Text.ofFile content := by
  cases hnewlines : io.newlines with
  | unified => rfl
  | kept =>
    have hcr := h.resolve_left (by rw [hnewlines]; decide)
    rw [Newlines.read, Text.ofFile]
    cases hd : Utf8.decode content with
    | error e => rfl
    | ok t => exact congrArg Except.ok (Text.unifyNewlines_eq_self (hcr t hd)).symm

/-- **The runs on what is in a file**, with options for a dump in front of its path and behind it
and with an output file, if one is to be named. -/
inductive FileRun (io : Streams) (f : Frontend) (s : Store) (stdin : Bytes) (F : String)
    (content : Bytes) (front back : List String) (target : Option String) :
    Bool → Outcome → Prop
  /-- The file is named. -/
  | named : FileRun io f s stdin F content front back target true
      (run f s stdin (front ++ F :: (back ++ outputArguments target)))
  /-- The content is the standard input. -/
  | piped (h : ReadsAlike io content) : FileRun io f s stdin F content front back target false
      (run f s content (front ++ back ++ outputArguments target))

section

variable {F : String} {rights : Rights} {front back : List String} {target : Option String}
  {byName : Bool} {o : Outcome}

/-- A path without a hyphen in front is not the one for the standard input. -/
theorem ne_hyphen (hname : F.toList.head? ≠ some '-') : F ≠ "-" := by
  rintro rfl
  exact hname rfl

/-- **Such a run gets to its command**, with what is in the file, if a file that is named may be
read and the output path is not refused. -/
theorem FileRun.starts (h : FileRun io f s stdin F content front back target byName o)
    (hfile : s.find F = .ok (.file rights content)) (hname : F.toList.head? ≠ some '-')
    (hoptions : front ++ back ⊆ dumpOptions) (hout : ∀ path ∈ target, ¬ OutputRefused s path)
    (hread : byName = true → rights.readable = true) :
    ∃ stdin arguments operands input, o = run f s stdin arguments ∧
      Starts io s stdin arguments (.requesting (front ++ back) operands target) input ∧
      input.text = Text.ofFile content := by
  cases h with
  | named =>
    exact ⟨_, _, _, _, rfl, ⟨.byName front back hname hoptions target, rfl,
      .file hout rfl (ne_hyphen hname) (Store.read_eq_ok_iff.mpr ⟨rights, hfile, hread rfl⟩)⟩, rfl⟩
  | piped hsame =>
    exact ⟨_, _, _, _, rfl, ⟨.piped hoptions target, rfl, .piped hout (.inl rfl)⟩, hsame.read_eq⟩

/-- It does so if the library is not denied the file. -/
theorem FileRun.starts_of_compiled (h : FileRun io f s stdin F content [] [] target byName o)
    (hfile : s.find F = .ok (.file rights content)) (hname : F.toList.head? ≠ some '-')
    (hout : ∀ path ∈ target, ¬ OutputRefused s path)
    (hc : s.compiled F ≠ .error (.file .denied (normalizePath F))) :
    ∃ stdin arguments operands input, o = run f s stdin arguments ∧
      Starts io s stdin arguments (.requesting [] operands target) input ∧
      input.text = Text.ofFile content ∧ s.read F = .ok content := by
  have hreadable : rights.readable = true := Store.readable_of_compiled hfile hc
  obtain ⟨_, _, _, input, ho, hstarts, htext⟩ :=
    h.starts hfile hname (List.nil_subset _) hout fun _ => hreadable
  exact ⟨_, _, _, input, ho, hstarts, htext, Store.read_eq_ok_iff.mpr ⟨rights, hfile, hreadable⟩⟩

theorem FileRun.prints {t : Text} (hf : f.Lawful io)
    (h : FileRun io f s stdin F content [] [] none byName o)
    (hfile : s.find F = .ok (.file rights content)) (hname : F.toList.head? ≠ some '-')
    (hc : (compileFile s F none).1 = .ok t) :
    o.code = 0 ∧ o.stdout = f.echo .output (String.ofList t) := by
  simp only [compileFile_none] at hc
  obtain ⟨_, _, _, input, rfl, hstarts, htext, hread⟩ :=
    h.starts_of_compiled hfile hname nofun (by rw [hc]; nofun)
  obtain ⟨source, hs, hcompile⟩ := (Store.compiled_eq_ok_iff hread).mp hc
  exact hstarts.prints hf (htext.trans hs) hcompile rfl

theorem FileRun.saves {t : Text} {target : String} (hf : f.Lawful io)
    (h : FileRun io f s stdin F content [] [] (some target) byName o)
    (hfile : s.find F = .ok (.file rights content)) (hname : F.toList.head? ≠ some '-')
    (hne : target ≠ "") (hnull : '\x00' ∉ target.toList) (hreads : ¬ Unreadable s target)
    (hc : compileFile s F (some target) = (.ok t, s')) : o.code = 0 ∧ o.store = s' := by
  obtain ⟨hcompiled, hw⟩ := saved_of_compileFile hne hc
  have hout : ∀ path ∈ some target, ¬ OutputRefused s path := by
    rintro path ⟨⟩ (hmem | hdir | hno)
    · exact hnull hmem
    · exact Store.find_ne_directory_of_write hw _ hdir
    · exact hreads hno
  obtain ⟨_, _, _, input, rfl, hstarts, htext, hread⟩ :=
    h.starts_of_compiled hfile hname hout (by rw [hcompiled]; nofun)
  obtain ⟨source, hs, hcompile⟩ := (Store.compiled_eq_ok_iff hread).mp hcompiled
  exact hstarts.saves hf (htext.trans hs) hcompile rfl hw

theorem FileRun.blames {fault : Fault} (hf : f.Lawful io)
    (h : FileRun io f s stdin F content [] [] target byName o)
    (hfile : s.find F = .ok (.file rights content)) (hname : F.toList.head? ≠ some '-')
    (hout : ∀ path ∈ target, ¬ OutputRefused s path)
    (hc : (compileFile s F none).1 = .error (.fault fault)) :
    o.code = 1 ∧ o.stderr = f.echo .error fault.describe := by
  simp only [compileFile_none] at hc
  obtain ⟨_, _, _, input, rfl, hstarts, htext, hread⟩ :=
    h.starts_of_compiled hfile hname hout (by rw [hc]; nofun)
  obtain ⟨source, hs, hcompile⟩ := (Store.compiled_eq_fault_iff hread).mp hc
  exact hstarts.blames hf (htext.trans hs) hcompile rfl

/-- A run whose output path is refused, or whose file may not be read, is refused. -/
theorem FileRun.code_of_refused (hf : f.Lawful io)
    (h : FileRun io f s stdin F content front back target byName o)
    (hfile : s.find F = .ok (.file rights content)) (hname : F.toList.head? ≠ some '-')
    (hoptions : front ++ back ⊆ dumpOptions) (hnull : ∀ path ∈ target, '\x00' ∉ path.toList)
    (hno : (∃ path ∈ target, OutputRefused s path) ∨ byName = true ∧ rights.readable = false) :
    o.code = 2 := by
  have hF : '\x00' ∉ F.toList := fun hmem => by
    cases hfile.symm.trans (Store.find_eq_nullCharacter_iff.mpr hmem)
  cases h with
  | named =>
    refine (Reads.byName front back hname hoptions target).code_of_unopened hf rfl ?_ ?_
    · rcases hno with ⟨path, hpath, hr⟩ | ⟨-, hunreadable⟩
      · exact .output hpath hr
      · have hdenied : s.read F = .error .denied := by
          rw [Store.read_of_find hfile, hunreadable]
          rfl
        exact .input rfl (ne_hyphen hname) hdenied
    · intro path hpath
      rcases Request.mem_paths.mp hpath with hpath | hpath
      · exact hnull path hpath
      · obtain rfl := List.mem_singleton.mp hpath
        exact hF
  | piped =>
    obtain ⟨path, hpath, hr⟩ := hno.resolve_right fun h => Bool.noConfusion h.1
    refine (Reads.piped hoptions target).code_of_unopened hf rfl (.output hpath hr) ?_
    intro path hpath
    exact hnull path ((Request.mem_paths.mp hpath).resolve_right List.not_mem_nil)

theorem FileRun.code_of_undecodable {e : Utf8.DecodeError} (hf : f.Lawful io)
    (h : FileRun io f s stdin F content front back target byName o)
    (hfile : s.find F = .ok (.file rights content)) (hname : F.toList.head? ≠ some '-')
    (hoptions : front ++ back ⊆ dumpOptions) (hnull : ∀ path ∈ target, '\x00' ∉ path.toList)
    (he : Utf8.decode content = .error e) : o.code = 2 := by
  by_cases hno : (∃ path ∈ target, OutputRefused s path) ∨ byName = true ∧ rights.readable = false
  · exact h.code_of_refused hf hfile hname hoptions hnull hno
  · obtain ⟨hout, hread⟩ := not_or.mp hno
    obtain ⟨_, _, _, input, rfl, hstarts, htext⟩ := h.starts hfile hname hoptions
      (fun path hpath hr => hout ⟨path, hpath, hr⟩)
      fun hnamed => Bool.of_not_eq_false fun hunreadable => hread ⟨hnamed, hunreadable⟩
    refine hstarts.code_of_undecodable hf (htext.trans ?_) (e := e)
    rw [Text.ofFile, he]
    rfl

theorem FileRun.code_eq_zero_iff {source : Text} (hf : f.Lawful io)
    (h : FileRun io f s stdin F content front back target byName o)
    (hfile : s.find F = .ok (.file rights content)) (hname : F.toList.head? ≠ some '-')
    (hs : Text.ofFile content = .ok source) (hoptions : front ++ back ⊆ dumpOptions)
    (hout : ∀ path ∈ target, ¬ OutputRefused s path ∧
      ∃ bytes s', s.write (normalizePath path) bytes = .ok s') :
    o.code = 0 ↔ (byName = true → rights.readable = true) ∧
      if "--tokens" ∈ front ++ back then ∃ ts, scan source = .ok ts
      else if "--ast" ∈ front ++ back then ∃ ts p, scan source = .ok ts ∧ parse ts = .ok p
      else ∃ text, compile source = .ok text := by
  by_cases hread : byName = true → rights.readable = true
  · obtain ⟨_, _, _, input, rfl, hstarts, htext⟩ :=
      h.starts hfile hname hoptions (fun path hpath => (hout path hpath).1) hread
    rw [hstarts.code_eq_zero_iff hf (htext.trans hs) fun path hpath => (hout path hpath).2,
      Invocation.selected_succeeds_iff, and_iff_right hread]
    simp only [Request.requesting, List.contains_iff_mem]
  · have hno : byName = true ∧ rights.readable = false := by simpa using hread
    have hnull : ∀ path ∈ target, '\x00' ∉ path.toList := fun path hpath hmem =>
      (hout path hpath).1 (.null hmem)
    rw [h.code_of_refused hf hfile hname hoptions hnull (.inr hno)]
    simp [hno]

end

/-! ## The command line and the library -/

/-- What is printed is the text itself, with a line feed behind, just if a terminal shows it or no
style code is in it. -/
theorem Frontend.Lawful.echo_eq_iff (hf : f.Lawful io) {channel : Channel} {text : String} :
    f.echo channel text = text ++ "\n" ↔
      io.isTerminal channel = true ∨ ¬ Text.IsStyled text.toList := by
  rw [hf.echo, String.append_left_inj]
  cases io.isTerminal channel with
  | true => simp
  | false => simp [Text.ofList_unstyled_eq_iff]

/-- **The command line and `compileFile` agree**, but for style codes in what is printed and for
output files that may not be read. Let `F` be a file that is named without a hyphen in front, and
let a run name it or be given its content as standard input.

* If `compileFile` returns a text, such a run succeeds and prints that text. If `compileFile` writes
  to a file, such a run with that output file succeeds and leaves the same files behind, unless the
  file was there and may not be read.
* If `compileFile` fails with a fault, such a run ends with status 1 and prints the fault to the
  error stream, whatever output file is named that is not refused.
* If the file is not UTF-8, or may not be read and is named, or if the output file may not be read,
  such a run ends with status 2.
* With options that ask for a dump, wherever they stand, such a run succeeds just if the text can be
  scanned, or if it can be parsed where no tokens are asked for.

What is printed is the text itself, with a line feed behind, just if a terminal shows it or no style
code is in it. -/
theorem run_agrees (io : Streams) (f : Frontend) (hf : f.Lawful io) (s : Store) (stdin : Bytes)
    (F : String) (rights : Rights) (content : Bytes)
    (hfile : s.find F = .ok (.file rights content)) (hname : F.toList.head? ≠ some '-') :
    (∀ t byName o, (compileFile s F none).1 = .ok t →
      FileRun io f s stdin F content [] [] none byName o →
        o.code = 0 ∧ o.stdout = f.echo .output (String.ofList t)) ∧
    (∀ target t s' byName o, target ≠ "" → '\x00' ∉ target.toList → ¬ Unreadable s target →
      compileFile s F (some target) = (.ok t, s') →
      FileRun io f s stdin F content [] [] (some target) byName o →
        o.code = 0 ∧ o.store = s') ∧
    (∀ fault target byName o, (compileFile s F none).1 = .error (.fault fault) →
      (∀ path ∈ target, ¬ OutputRefused s path) →
      FileRun io f s stdin F content [] [] target byName o →
        o.code = 1 ∧ o.stderr = f.echo .error fault.describe) ∧
    (∀ front back target byName o, front ++ back ⊆ dumpOptions →
      (∀ path ∈ target, '\x00' ∉ path.toList) →
      (∃ e, Utf8.decode content = .error e) ∨ byName = true ∧ rights.readable = false ∨
        (∃ path ∈ target, Unreadable s path) →
      FileRun io f s stdin F content front back target byName o → o.code = 2) ∧
    (∀ source front back target byName o, Text.ofFile content = .ok source →
      front ++ back ⊆ dumpOptions →
      (∀ path ∈ target, ¬ OutputRefused s path ∧
        ∃ bytes s', s.write (normalizePath path) bytes = .ok s') →
      FileRun io f s stdin F content front back target byName o →
        (o.code = 0 ↔ (byName = true → rights.readable = true) ∧
          if "--tokens" ∈ front ++ back then ∃ ts, scan source = .ok ts
          else if "--ast" ∈ front ++ back then ∃ ts p, scan source = .ok ts ∧ parse ts = .ok p
          else ∃ t, compile source = .ok t)) ∧
    ∀ (channel : Channel) (text : String), f.echo channel text = text ++ "\n" ↔
      io.isTerminal channel = true ∨ ¬ Text.IsStyled text.toList := by
  refine ⟨fun _ _ _ hc h => h.prints hf hfile hname hc,
    fun _ _ _ _ _ hne hnull hreads hc h => h.saves hf hfile hname hne hnull hreads hc,
    fun _ _ _ _ hc hout h => h.blames hf hfile hname hout hc,
    fun _ _ target byName _ hoptions hnull hno h => ?_,
    fun _ _ _ _ _ _ hs hoptions hout h => h.code_eq_zero_iff hf hfile hname hs hoptions hout,
    fun _ _ => hf.echo_eq_iff⟩
  rcases hno with ⟨e, he⟩ | hno | ⟨path, hpath, hr⟩
  · exact h.code_of_undecodable hf hfile hname hoptions hnull he
  · exact h.code_of_refused hf hfile hname hoptions hnull (.inr hno)
  · exact h.code_of_refused hf hfile hname hoptions hnull (.inl ⟨path, hpath, .unreadable hr⟩)

/-- A file with a call in it, and its content as standard input. -/
theorem run_agrees_call :
    ((Frontend.standard {}).Lawful {} ∧
      callStore.find "p" = .ok (.file {} [0x28, 0x66, 0x29]) ∧ "p".toList.head? ≠ some '-') ∧
    ∀ o ∈ [run (Frontend.standard {}) callStore [] ["p"],
        run (Frontend.standard {}) callStore [0x28, 0x66, 0x29] []],
      o.code = 0 ∧ o.stdout = "f();\n" := by
  have hf : (Frontend.standard {}).Lawful {} := standard_lawful {}
  have hfile : callStore.find "p" = .ok (.file {} [0x28, 0x66, 0x29]) := by decide +kernel
  have hname : "p".toList.head? ≠ some '-' := by decide
  have hcompiled : (compileFile callStore "p" none).1 = .ok ['f', '(', ')', ';'] := by
    decide +kernel
  have hecho : (Frontend.standard {}).echo .output (String.ofList ['f', '(', ')', ';']) =
      "f();\n" := by decide +kernel
  have hagrees := (run_agrees {} (Frontend.standard {}) hf callStore [] "p" {} [0x28, 0x66, 0x29]
    hfile hname).1
  rw [← hecho]
  simp only [List.forall_mem_cons]
  exact ⟨⟨hf, hfile, hname⟩, hagrees _ true _ hcompiled .named,
    hagrees _ false _ hcompiled (.piped (.inl rfl)), List.forall_mem_nil _⟩

/-- What `compileFile` returns is not always what is printed: a string may hold a style code. -/
theorem run_not_prints_styled :
    ¬ ∀ (io : Streams) (f : Frontend), f.Lawful io →
      ∀ (s : Store) (stdin : Bytes) (F : String) (rights : Rights) (content : Bytes) (t : Text),
        s.find F = .ok (.file rights content) → normalizePath F = F → F.toList.head? ≠ some '-' →
        (compileFile s F none).1 = .ok t →
          (run f s stdin [F]).stdout = String.ofList t ++ "\n" := by
  intro h
  have hstdout := h {} (Frontend.standard {}) (standard_lawful {})
    { entries := [([['p']], .file {} [0x28, 0x66, 0x20, 0x22, 0x1b, 0x5b, 0x6d, 0x22, 0x29])] } []
    "p" {} [0x28, 0x66, 0x20, 0x22, 0x1b, 0x5b, 0x6d, 0x22, 0x29]
    ['f', '(', '"', '\x1b', '[', 'm', '"', ')', ';']
    (by decide +kernel) (by decide) (by decide) (by decide +kernel)
  exact absurd hstdout (by decide +kernel)

end CallNotation
