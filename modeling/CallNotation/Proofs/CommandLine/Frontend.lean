import CallNotation.CommandLine.Run
import CallNotation.CommandLine.Standard
import CallNotation.Proofs.CommandLine.Grammar
import CallNotation.Proofs.Store.Saving

/-!
# What a front end does

A front end refuses a bad option, shows a notice, refuses what it cannot open, or calls the command.
`Frontend.Lawful` says when it does which, in terms of the arguments and the files, and no more than
the program relies on: not in which order it looks at things, and of what it says when it refuses
only what that may depend on. What is proved of runs is proved for every front end of this kind.

Results:
* `opens_or_unopened`: a request opens its input, or there is a reason why not.
* `Request.prepare_eq_ok_iff`: the standard front end opens just that input.
* **`standard_lawful`**: the standard front end does what is relied on.
-/

namespace CallNotation

/-! ## Opening the input -/

/-- The path leads to a file that may not be read. -/
def Unreadable (s : Store) (path : String) : Prop :=
  ∃ rights content, s.find path = .ok (.file rights content) ∧ rights.readable = false

/-- **An output path that is refused.** -/
inductive OutputRefused (s : Store) (path : String) : Prop
  /-- The system does not take it. -/
  | null (h : '\x00' ∈ path.toList)
  /-- It leads to a directory. -/
  | directory {rights : Rights} (h : s.find path = .ok (.directory rights))
  /-- It leads to a file that may not be read. -/
  | unreadable (h : Unreadable s path)

/-- **The input that a request opens**, where nothing stands in the way of it. -/
inductive Request.Opens (io : Streams) (s : Store) (stdin : Bytes) (q : Request) : Input → Prop
  /-- No file is named, or a hyphen stands for it: the standard input is read. -/
  | piped (hout : ∀ path ∈ q.output, ¬ OutputRefused s path)
      (h : q.operands = [] ∨ q.operands = ["-"]) :
      q.Opens io s stdin ⟨"<stdin>", io.newlines.read stdin⟩
  /-- A file is named that can be read. -/
  | file {path : String} {content : Bytes} (hout : ∀ path ∈ q.output, ¬ OutputRefused s path)
      (h : q.operands = [path]) (hname : path ≠ "-") (hread : s.read path = .ok content) :
      q.Opens io s stdin ⟨path, Text.ofFile content⟩

/-- **What stands in the way of the input.** -/
inductive Request.Unopened (s : Store) (q : Request) : Prop
  /-- The output path is refused. -/
  | output {path : String} (h : q.output = some path) (hr : OutputRefused s path)
  /-- The file that is named cannot be read. -/
  | input {path : String} {fault : FileFault} (h : q.operands.head? = some path)
      (hname : path ≠ "-") (hread : s.read path = .error fault)
  /-- More is named than one file. -/
  | operands (h : 1 < q.operands.length)

section

variable {io : Streams} {s : Store} {stdin : Bytes} {q : Request} {input : Input}

/-- A request opens its input, or there is a reason why not. -/
theorem opens_or_unopened (io : Streams) (s : Store) (stdin : Bytes) (q : Request) :
    (∃ input, q.Opens io s stdin input) ∨ q.Unopened s := by
  by_cases hout : ∀ path ∈ q.output, ¬ OutputRefused s path
  · match hq : q.operands with
    | [] => exact .inl ⟨_, .piped hout (.inl hq)⟩
    | [path] =>
      by_cases hname : path = "-"
      · exact .inl ⟨_, .piped hout (.inr (by rw [hq, hname]))⟩
      · cases hread : s.read path with
        | error fault => exact .inr (.input (by rw [hq]; rfl) hname hread)
        | ok content => exact .inl ⟨_, .file hout hq hname hread⟩
    | _ :: _ :: operands => exact .inr (.operands (by rw [hq]; simp))
  · obtain ⟨path, hpath, hr⟩ : ∃ path ∈ q.output, OutputRefused s path := by simpa using hout
    exact .inr (.output hpath hr)

theorem Request.Opens.not_unopened (h : q.Opens io s stdin input) : ¬ q.Unopened s := by
  rintro (⟨hpath, hr⟩ | ⟨hhead, hname, hread⟩ | hlength)
  · cases h with
    | piped hout _ => exact hout _ hpath hr
    | file hout _ _ _ => exact hout _ hpath hr
  · cases h with
    | piped _ h => rcases h with h | h <;> simp_all
    | file _ h _ hread' => simp_all
  · cases h with
    | piped _ h => rcases h with h | h <;> simp_all
    | file _ h _ _ => simp_all

end

/-! ## Laws -/

/-- **What the program relies on in a front end.** The standard streams are those of the run. -/
structure Frontend.Lawful (io : Streams) (f : Frontend) : Prop where
  /-- A bad option is refused as invalid use. -/
  options : ∀ (s : Store) (stdin : Bytes) {arguments : List String}, BadOption arguments →
    ∃ report, f.start s stdin arguments = .refused 2 report
  /-- Otherwise, if a notice is asked for, it is all that is shown. -/
  notice : ∀ (s : Store) (stdin : Bytes) {arguments : List String} {q : Request},
    Reads arguments q → q.notice ≠ none → ∃ notice, f.start s stdin arguments = .noticed notice
  /-- Otherwise the command is called with what is asked for, if the input can be opened. -/
  opens : ∀ {s : Store} {stdin : Bytes} {arguments : List String} {q : Request} {input : Input},
    Reads arguments q → q.notice = none → q.Opens io s stdin input →
      f.start s stdin arguments = .called q.toInvocation input
  /-- If it cannot, that is refused as invalid use; but a path with a null character may end the run
  in another way. -/
  refuses : ∀ (s : Store) (stdin : Bytes) {arguments : List String} {q : Request},
    Reads arguments q → q.notice = none → q.Unopened s →
      ∃ code report, f.start s stdin arguments = .refused code report ∧
        (code = 2 ∨ code = 1 ∧ ∃ path ∈ q.paths, '\x00' ∈ path.toList)
  /-- What stands in front of a bad option does not matter to its refusal. -/
  behind : ∀ (s : Store) (stdin : Bytes) {arguments rest : List String} {set : Request → Request},
    Begins arguments set rest → BadOption rest → f.start s stdin arguments = f.start s stdin rest
  /-- What is shown or refused otherwise is told by the notice, the output path and the operands. -/
  told : ∀ (s : Store) (stdin : Bytes) {arguments arguments' : List String} {q q' : Request},
    Reads arguments q → Reads arguments' q' → q.notice = q'.notice → q.output = q'.output →
      q.operands = q'.operands → q'.notice ≠ none ∨ q'.Unopened s →
      f.start s stdin arguments = f.start s stdin arguments'
  /-- A terminal shows a text as it is, and any other stream takes it without its style codes. -/
  echo : ∀ (channel : Channel) (t : String), f.echo channel t =
    (if io.isTerminal channel then t else String.ofList (Text.unstyled t.toList)) ++ "\n"

/-! ## The standard front end -/

section

variable {io : Streams} {s : Store} {stdin : Bytes} {q : Request} {input : Input} {e : UsageError}

theorem outputRefused_iff {path : String} :
    OutputRefused s path ↔
      match s.find path with
      | .error fault => fault = .nullCharacter
      | .ok (.directory _) => True
      | .ok (.file rights _) => rights.readable = false := by
  constructor
  · rintro (hnull | hdir | ⟨rights, content, hfile, hr⟩)
    · rw [Store.find_eq_nullCharacter_iff.mpr hnull]
    · rw [hdir]
      trivial
    · rw [hfile]
      exact hr
  · intro h
    split at h
    · rename_i fault hfind
      subst h
      exact .null (Store.find_eq_nullCharacter_iff.mp hfind)
    · rename_i rights hdir
      exact .directory hdir
    · rename_i rights content hfile
      exact .unreadable ⟨rights, content, hfile, h⟩

namespace Request

theorem checkOutput_eq_ok_iff :
    q.checkOutput s = .ok () ↔ ∀ path ∈ q.output, ¬ OutputRefused s path := by
  unfold checkOutput
  cases q.output with
  | none => simp
  | some path =>
    simp only [Option.mem_some_iff, forall_eq', outputRefused_iff]
    cases s.find path with
    | error fault => cases fault <;> simp
    | ok e =>
      cases e with
      | directory rights => simp
      | file rights content => cases hr : rights.readable <;> simp [hr]

theorem openInput_eq_ok_iff :
    q.openInput io s stdin = .ok input ↔
      q.inputOperand = "-" ∧ input = ⟨"<stdin>", io.newlines.read stdin⟩ ∨
        q.inputOperand ≠ "-" ∧ ∃ content, s.read q.inputOperand = .ok content ∧
          input = ⟨q.inputOperand, Text.ofFile content⟩ := by
  unfold openInput stdinOperand stdinName
  by_cases hstdin : q.inputOperand = "-"
  · simp [hstdin, eq_comm]
  · rw [if_neg hstdin]
    cases s.read q.inputOperand with
    | error fault => cases fault <;> simp [hstdin]
    | ok content => simp [hstdin, eq_comm]

/-- The output path and the operands tell what is opened. -/
theorem prepare_congr {q' : Request} (houtput : q.output = q'.output)
    (hoperands : q.operands = q'.operands) : q.prepare io s stdin = q'.prepare io s stdin := by
  unfold prepare checkOutput openInput inputOperand
  rw [houtput, hoperands]

theorem inputOperand_eq {operands : List String} (h : q.operands = operands) :
    q.inputOperand = operands.headD "-" :=
  congrArg (·.headD "-") h

/-- **The standard front end opens the input of a request.** -/
theorem prepare_eq_ok_iff : q.prepare io s stdin = .ok input ↔ q.Opens io s stdin input := by
  constructor
  · intro h
    unfold prepare at h
    split at h
    · cases h
    · cases h
    · rename_i hcheck hopen hrest
      cases h
      have hout := checkOutput_eq_ok_iff.mp hcheck
      rw [openInput_eq_ok_iff] at hopen
      match hq : q.operands with
      | [] =>
        rw [inputOperand_eq hq] at hopen
        obtain ⟨-, rfl⟩ := hopen.resolve_right fun h => h.1 rfl
        exact .piped hout (.inl hq)
      | [path] =>
        rw [inputOperand_eq hq] at hopen
        rcases hopen with ⟨rfl, rfl⟩ | ⟨hname, content, hread, rfl⟩
        · exact .piped hout (.inr hq)
        · exact .file hout hq hname hread
      | _ :: _ :: _ =>
        rw [hq] at hrest
        cases hrest
    · cases h
  · intro h
    unfold prepare
    cases h with
    | piped hout h =>
      have hopen : q.openInput io s stdin = .ok ⟨"<stdin>", io.newlines.read stdin⟩ := by
        refine openInput_eq_ok_iff.mpr (.inl ⟨?_, rfl⟩)
        rcases h with h | h <;> exact inputOperand_eq h
      have hrest : q.operands.drop 1 = [] := by rcases h with h | h <;> rw [h] <;> rfl
      rw [checkOutput_eq_ok_iff.mpr hout, hopen, hrest]
    | @file path content hout h hname hread =>
      have hopen : q.openInput io s stdin = .ok ⟨path, Text.ofFile content⟩ := by
        refine openInput_eq_ok_iff.mpr (.inr ?_)
        rw [inputOperand_eq h]
        exact ⟨hname, content, hread, rfl⟩
      rw [checkOutput_eq_ok_iff.mpr hout, hopen, h]
      rfl

theorem code_of_checkOutput (h : q.checkOutput s = .error e) :
    e.code = 2 ∨ e.code = 1 ∧ ∃ path ∈ q.paths, '\x00' ∈ path.toList := by
  unfold checkOutput at h
  split at h
  · cases h
  rename_i path hpath
  split at h
  · rename_i hfind
    cases h
    exact .inr ⟨rfl, path, mem_paths.mpr (.inl hpath), Store.find_eq_nullCharacter_iff.mp hfind⟩
  · cases h
  · cases h
    exact .inl rfl
  · split at h <;> cases h
    exact .inl rfl

theorem code_of_openInput (h : q.openInput io s stdin = .error e) :
    e.code = 2 ∨ e.code = 1 ∧ ∃ path ∈ q.paths, '\x00' ∈ path.toList := by
  unfold openInput at h
  split at h
  · cases h
  rename_i hstdin
  split at h
  · rename_i hread
    cases h
    have hoperand : q.inputOperand ∈ q.operands := by
      cases hq : q.operands with
      | nil => exact absurd (inputOperand_eq hq) hstdin
      | cons path operands =>
        rw [inputOperand_eq hq]
        exact .head _
    exact .inr ⟨rfl, _, mem_paths.mpr (.inr hoperand), Store.mem_of_read_eq_nullCharacter hread⟩
  · cases h
    exact .inl rfl
  · cases h

/-- What it refuses is invalid use, but for null characters. -/
theorem code_of_prepare (h : q.prepare io s stdin = .error e) :
    e.code = 2 ∨ e.code = 1 ∧ ∃ path ∈ q.paths, '\x00' ∈ path.toList := by
  unfold prepare at h
  split at h
  · rename_i hcheck
    cases h
    exact code_of_checkOutput hcheck
  · rename_i hopen
    cases h
    exact code_of_openInput hopen
  · cases h
  · cases h
    exact .inl rfl

end Request

theorem UsageError.code_eq_two {e : UsageError} (h : e ≠ .nullInPath) : e.code = 2 := by
  cases e <;> first | rfl | exact absurd rfl h

theorem Streams.start_of_error (io : Streams) {arguments : List String}
    (h : Request.ofArguments arguments = .error e) :
    io.start s stdin arguments = .ofError io e := by
  rw [Streams.start, h]

theorem Streams.start_of_notice (io : Streams) {arguments : List String} (h : Reads arguments q)
    (hn : q.notice = some notice) :
    io.start s stdin arguments = .noticed (io.echo .output notice.text) := by
  simp only [Streams.start, h.ofArguments, hn]

theorem Streams.start_of_refused (io : Streams) {arguments : List String} (h : Reads arguments q)
    (hn : q.notice = none) (he : q.prepare io s stdin = .error e) :
    io.start s stdin arguments = .ofError io e := by
  simp only [Streams.start, h.ofArguments, hn, he]

theorem Streams.start_of_prepared (io : Streams) {arguments : List String} (h : Reads arguments q)
    (hn : q.notice = none) (hi : q.prepare io s stdin = .ok input) :
    io.start s stdin arguments = .called q.toInvocation input := by
  simp only [Streams.start, h.ofArguments, hn, hi]

/-- **The standard front end does what is relied on.** -/
theorem standard_lawful (io : Streams) : (Frontend.standard io).Lawful io where
  options s stdin arguments h := by
    obtain ⟨e, he, hne⟩ := h.ofArguments
    refine ⟨e.report io, (io.start_of_error he).trans ?_⟩
    rw [Start.ofError, e.code_eq_two hne]
  notice s stdin arguments q h hn := by
    obtain ⟨notice, hn⟩ := Option.ne_none_iff_exists'.mp hn
    exact ⟨io.echo .output notice.text, io.start_of_notice h hn⟩
  opens h hn hopens := io.start_of_prepared h hn (Request.prepare_eq_ok_iff.mpr hopens)
  refuses s stdin arguments q h hn hunopened := by
    cases he : q.prepare io s stdin with
    | error e => exact ⟨e.code, e.report io, io.start_of_refused h hn he, Request.code_of_prepare he⟩
    | ok input => exact absurd hunopened (Request.prepare_eq_ok_iff.mp he).not_unopened
  behind s stdin {arguments rest set} h hbad := by
    obtain ⟨e, he, -⟩ := hbad.ofArguments
    have hbehind : Request.ofArguments arguments = .error e := by
      rw [Request.ofArguments_of_begins h, he]
      rfl
    exact (io.start_of_error hbehind).trans (io.start_of_error he).symm
  told s stdin {arguments arguments' q q'} h h' hnotice houtput hoperands huncalled := by
    cases hn : q'.notice with
    | some notice =>
      exact (io.start_of_notice h (hnotice.trans hn)).trans (io.start_of_notice h' hn).symm
    | none =>
      have hunopened : q'.Unopened s := huncalled.resolve_left (not_not.mpr hn)
      cases he : q'.prepare io s stdin with
      | error e =>
        have he' : q.prepare io s stdin = .error e :=
          (Request.prepare_congr houtput hoperands).trans he
        exact (io.start_of_refused h (hnotice.trans hn) he').trans
          (io.start_of_refused h' hn he).symm
      | ok input => exact absurd hunopened (Request.prepare_eq_ok_iff.mp he).not_unopened
  echo _ _ := rfl

end

end CallNotation
