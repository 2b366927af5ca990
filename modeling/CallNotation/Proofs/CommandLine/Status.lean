import CallNotation.Proofs.CommandLine.Course

/-!
# What a run reports to its caller

The paths of a run are parts of its arguments. So if no argument holds a null character, the system
takes every path, and a run that fails reports why. Where nothing is restricted, its status tells
apart a malformed program (1), other mistakes of the user (2) and an output path that cannot be
written to although no directory is missing (3).

Results:
* `Course.reason`: the reason behind each status.
* **`run_status`**: each status has its reason, and each reason its status.
-/

namespace CallNotation

/-! ## Reasons -/

section

variable (io : Streams) (s : Store) (stdin : Bytes) (arguments : List String)

/-- The program is malformed, as far as it is looked at for what is asked for. -/
def Malformed : Prop :=
  ∃ q input source fault, Starts io s stdin arguments q input ∧ input.text = .ok source ∧
    q.selected source = .error fault

/-- What is asked for cannot be written to the output path. -/
def FailsToWrite (target : String) (fault : FileFault) : Prop :=
  ∃ q input source text, Starts io s stdin arguments q input ∧ input.text = .ok source ∧
    q.selected source = .ok text ∧ q.output = some target ∧
    s.write (normalizePath target) (Utf8.encode text) = .error fault

/-- The user asks for something that cannot be had, whatever the program is. -/
inductive Misused : Prop
  /-- There is a bad option. -/
  | options (h : BadOption arguments)
  /-- The output path is refused, the input cannot be read, or there are further operands. -/
  | input {q : Request} (h : Reads arguments q) (hn : q.notice = none) (hu : q.Unopened s)
  /-- The input is no text. -/
  | encoding {q : Request} {input : Input} {e : Utf8.DecodeError}
      (h : Starts io s stdin arguments q input) (he : input.text = .error e)
  /-- The directory of the output file is missing. -/
  | directory {target : String} (h : FailsToWrite io s stdin arguments target .missing)

/-- The output path cannot be written to although no directory is missing. -/
def Unwritable : Prop :=
  ∃ target fault, Store.Unwritable target fault ∧ FailsToWrite io s stdin arguments target fault

/-- The reason behind a status. -/
def Reason : Nat → Prop
  | 0 => True
  | 1 => Malformed io s stdin arguments
  | 2 => Misused io s stdin arguments
  | 3 => Unwritable io s stdin arguments
  | _ => False

end

theorem Store.Unwritable.isUnforeseen {path : String} {fault : FileFault}
    (h : Store.Unwritable path fault) (target : String) :
    (Failure.file fault target).status = .internalError := by
  cases h <;> rfl

section

variable {io : Streams} {f : Frontend} {s : Store} {stdin : Bytes} {arguments : List String}
  {q : Request}

/-- No path of a request holds a null character if no argument does. -/
theorem Reads.not_mem_of_paths (hnull : ∀ a ∈ arguments, '\x00' ∉ a.toList)
    (h : Reads arguments q) : ∀ path ∈ q.paths, '\x00' ∉ path.toList := by
  intro path hpath hmem
  obtain ⟨a, ha, hsub⟩ := h.paths path hpath
  exact hnull a ha (hsub hmem)

/-- An output path that is written to leads to no directory. -/
theorem Request.Opens.output_ne_directory {input : Input} {target : String}
    (h : q.Opens io s stdin input) (ho : q.output = some target) (rights : Rights) :
    s.find target ≠ .ok (.directory rights) := by
  intro hdir
  exact h.not_unopened (.output ho (.directory hdir))

/-- **There is a reason behind each status.** -/
theorem Course.reason {o : Outcome} (hs : s.Unrestricted)
    (hnull : ∀ a ∈ arguments, '\x00' ∉ a.toList) (h : Course io f s stdin arguments o) :
    Reason io s stdin arguments o.code := by
  cases h with
  | refused h => exact Misused.options h
  | noticed h hn => trivial
  | unopened h hn hu hcode =>
    rcases hcode with rfl | ⟨rfl, path, hpath, hmem⟩
    · exact Misused.input h hn hu
    · exact absurd hmem (h.not_mem_of_paths hnull path hpath)
  | @called q input o h he =>
    cases he with
    | undecodable he => exact Misused.encoding h he
    | faulty hsource hf => exact ⟨q, input, _, _, h, hsource, hf⟩
    | shown hsource ht ho => trivial
    | @unwritten source text target fault hsource ht ho hw =>
      have hfails : FailsToWrite io s stdin arguments target fault :=
        ⟨q, input, source, text, h, hsource, ht, ho, hw⟩
      have htarget : '\x00' ∉ target.toList :=
        h.arguments.not_mem_of_paths hnull target (Request.mem_paths.mpr (.inl ho))
      rcases Store.write_eq_error hs htarget (h.input.output_ne_directory ho) hw with rfl | hfault
      · exact Misused.directory hfails
      · change Reason io s stdin arguments (Failure.file fault _).status.code
        rw [hfault.isUnforeseen]
        exact ⟨target, fault, hfault, hfails⟩
    | written hsource ht ho hw => trivial

theorem Malformed.code (hf : f.Lawful io) (h : Malformed io s stdin arguments) :
    (run f s stdin arguments).code = 1 := by
  obtain ⟨q, input, source, fault, h, hs, hfault⟩ := h
  rw [h.goes hf (.faulty hs hfault)]
  rfl

theorem FailsToWrite.code {target : String} {fault : FileFault} (hf : f.Lawful io)
    (h : FailsToWrite io s stdin arguments target fault) : (run f s stdin arguments).code =
      (Failure.file fault (normalizePath target)).status.code := by
  obtain ⟨q, input, source, text, h, hs, ht, ho, hw⟩ := h
  rw [h.goes hf (.unwritten hs ht ho hw)]
  rfl

theorem Misused.code (hf : f.Lawful io) (hnull : ∀ a ∈ arguments, '\x00' ∉ a.toList)
    (h : Misused io s stdin arguments) : (run f s stdin arguments).code = 2 := by
  cases h with
  | options h =>
    obtain ⟨report, hstart⟩ := hf.options s stdin h
    rw [run, hstart]
  | input h hn hu => exact h.code_of_unopened hf hn hu (h.not_mem_of_paths hnull)
  | encoding h he => exact h.code_of_undecodable hf he
  | directory h => exact h.code hf

theorem Unwritable.code (hf : f.Lawful io) (h : Unwritable io s stdin arguments) :
    (run f s stdin arguments).code = 3 := by
  obtain ⟨target, fault, hfault, h⟩ := h
  rw [h.code hf, hfault.isUnforeseen]
  rfl

/-- **What the status of a run says**, where nothing is restricted and no argument holds a null
character. It is 1 just if the program is malformed and 2 just if the arguments or the files are not
what they have to be. It is 3 just if all this is in order, but the output path goes on behind a
file, is too long or is empty; and there is no other status than these and 0. -/
theorem run_status (io : Streams) (f : Frontend) (hf : f.Lawful io) (s : Store)
    (hs : s.Unrestricted) (stdin : Bytes) (arguments : List String)
    (hnull : ∀ a ∈ arguments, '\x00' ∉ a.toList) :
    ((run f s stdin arguments).code = 1 ↔ Malformed io s stdin arguments) ∧
    ((run f s stdin arguments).code = 2 ↔ Misused io s stdin arguments) ∧
    ((run f s stdin arguments).code = 3 ↔ Unwritable io s stdin arguments) ∧
    (run f s stdin arguments).code ≤ 3 := by
  have hreason := (run_course hf s stdin arguments).reason hs hnull
  refine ⟨⟨fun h => ?_, fun h => h.code hf⟩, ⟨fun h => ?_, fun h => h.code hf hnull⟩,
    ⟨fun h => ?_, fun h => h.code hf⟩, ?_⟩
  · rw [h] at hreason
    exact hreason
  · rw [h] at hreason
    exact hreason
  · rw [h] at hreason
    exact hreason
  · generalize (run f s stdin arguments).code = code at hreason
    match code, hreason with
    | 0, _ => decide
    | 1, _ => decide
    | 2, _ => decide
    | 3, _ => decide

/-- The output path goes on behind a file. -/
theorem run_status_below_file :
    (Frontend.standard {}).Lawful {} ∧ callStore.Unrestricted ∧
      (∀ a ∈ ["-o", "p/x"], '\x00' ∉ a.toList) ∧
      Unwritable {} callStore [0x31] ["-o", "p/x"] := by
  have hf : (Frontend.standard {}).Lawful {} := standard_lawful {}
  have hnull : ∀ a ∈ ["-o", "p/x"], '\x00' ∉ a.toList := by decide
  have hstatus := run_status {} (Frontend.standard {}) hf callStore callStore_unrestricted [0x31]
    ["-o", "p/x"] hnull
  exact ⟨hf, callStore_unrestricted, hnull, hstatus.2.2.1.mp (by decide +kernel)⟩

/-- An output path that cannot be written to is not always reported as invalid use. -/
theorem run_status_not_below_three :
    ¬ ∀ (io : Streams) (f : Frontend), f.Lawful io → ∀ s : Store, s.Unrestricted →
      ∀ (stdin : Bytes) (arguments : List String),
        (∀ a ∈ arguments, '\x00' ∉ a.toList) → (run f s stdin arguments).code < 3 := by
  intro h
  have hcode := h {} (Frontend.standard {}) (standard_lawful {}) callStore callStore_unrestricted
    [0x31] ["-o", "p/x"] (by decide)
  exact absurd hcode (by decide +kernel)

end

end CallNotation
