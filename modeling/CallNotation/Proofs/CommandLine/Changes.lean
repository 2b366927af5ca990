import CallNotation.Proofs.CommandLine.Course
import CallNotation.Proofs.Store.Sources

/-!
# What is changed, and when

Writing is the last thing that is done, and it saves one file. So what fails has changed nothing,
whatever it is that fails, and what succeeds has changed nothing but the file it was to write.

Results:
* `CompilesFile.changes`, `Course.changes`: each way in which a compilation or a run can go, looked
  at for what it changes.
* **`changes_come_last`**: the same of all compilations of files and all runs.
-/

namespace CallNotation

variable {s s' : Store}

/-- The bytes of a text are those of the string. -/
theorem Utf8.encode_eq_toUTF8 (t : Text) :
    Utf8.encode t = (String.ofList t).toUTF8.data.toList := by
  simp [encode, String.toUTF8, List.utf8Encode]

/-! ## Compiling a file -/

/-- A compilation of a file that fails leaves the store as it is. One that succeeds saves the
output, or leaves the store as it is if no file is named for it. -/
theorem CompilesFile.changes {path : String} {output : Option String} {r : Except Failure Text}
    (h : CompilesFile s path output r s') :
    (∀ failure, r = .error failure → s' = s) ∧
      ∀ t, r = .ok t →
        (output.getD "" = "" → s' = s) ∧
        ∀ target ∈ output, target ≠ "" → s.Saved s' (normalizePath target) (Utf8.encode t) := by
  cases h with
  | failed h => exact ⟨fun _ _ => rfl, nofun⟩
  | kept h ho =>
    refine ⟨nofun, fun t _ => ⟨fun _ => rfl, fun target htarget ht => ?_⟩⟩
    obtain rfl := htarget
    exact absurd ho ht
  | unwritten h ht hw => exact ⟨fun _ _ => rfl, nofun⟩
  | written h ht hw =>
    refine ⟨nofun, fun t heq => ⟨fun ho => absurd ho ht, fun target htarget _ => ?_⟩⟩
    cases heq
    cases htarget
    exact Store.write_saved hw

/-! ## Runs -/

theorem Failure.code_ne_zero (failure : Failure) : failure.status.code ≠ 0 := by
  unfold Failure.status
  split <;> exact nofun

theorem Invocation.code_fail (i : Invocation) (f : Frontend) (notes : List Note)
    (failure : Failure) : (i.fail f s notes failure).code ≠ 0 :=
  failure.code_ne_zero

/-- A command that fails prints nothing but its report and leaves the store as it is. One that
succeeds leaves it as it is too, unless an output file is named; then nothing is printed but a
report, and what was asked for is saved. -/
theorem Executes.changes {f : Frontend} {i : Invocation} {input : Input} {o : Outcome}
    (h : Executes f s i input o) :
    (o.code ≠ 0 → o.stdout = "" ∧ o.store = s) ∧
      (o.code = 0 → (i.output = none → o.store = s) ∧
        ∀ target ∈ i.output, o.stdout = "" ∧
          ∃ source text, input.text = .ok source ∧ i.selected source = .ok text ∧
            s.Saved o.store (normalizePath target) (Utf8.encode text)) := by
  cases h with
  | undecodable he =>
    exact ⟨fun _ => ⟨rfl, rfl⟩, fun hok => absurd hok (i.code_fail f _ _)⟩
  | faulty hs hf =>
    exact ⟨fun _ => ⟨rfl, rfl⟩, fun hok => absurd hok (i.code_fail f _ _)⟩
  | shown hs ht ho =>
    refine ⟨fun hfail => absurd rfl hfail, fun _ => ⟨fun _ => rfl, fun target htarget => ?_⟩⟩
    rw [ho] at htarget
    cases htarget
  | unwritten hs ht ho hw =>
    exact ⟨fun _ => ⟨rfl, rfl⟩, fun hok => absurd hok (i.code_fail f _ _)⟩
  | @written source text target s' hs ht ho hw =>
    refine ⟨fun hfail => absurd rfl hfail, fun _ => ⟨fun hnone => ?_, fun target' htarget => ?_⟩⟩
    · rw [ho] at hnone
      cases hnone
    · rw [ho] at htarget
      cases htarget
      exact ⟨rfl, source, text, hs, ht, Store.write_saved hw⟩

/-- The same of a run, where a notice changes nothing either. -/
theorem Course.changes {io : Streams} {f : Frontend} {stdin : Bytes} {arguments : List String}
    {o : Outcome} (h : Course io f s stdin arguments o) :
    (o.code ≠ 0 → o.stdout = "" ∧ o.store = s) ∧
      (o.code = 0 → ∃ q, Reads arguments q ∧
        (q.output = none ∨ q.notice ≠ none → o.store = s) ∧
        ∀ target ∈ q.output, q.notice = none → o.stdout = "" ∧
          ∃ input source text, q.Opens io s stdin input ∧ input.text = .ok source ∧
            q.selected source = .ok text ∧
            s.Saved o.store (normalizePath target) (Utf8.encode text)) := by
  cases h with
  | refused h => exact ⟨fun _ => ⟨rfl, rfl⟩, nofun⟩
  | @noticed q notice h hn =>
    exact ⟨fun hfail => absurd rfl hfail,
      fun _ => ⟨q, h, fun _ => rfl, fun _ _ hnone => absurd hnone hn⟩⟩
  | unopened h hn hu hcode =>
    refine ⟨fun _ => ⟨rfl, rfl⟩, fun hok => ?_⟩
    obtain rfl : _ = 0 := hok
    rcases hcode with hcode | ⟨hcode, -⟩ <;> cases hcode
  | @called q input o h he =>
    obtain ⟨hfails, hsucceeds⟩ := he.changes
    refine ⟨hfails, fun hok => ⟨q, h.arguments, fun hkeep => ?_, fun target htarget _ => ?_⟩⟩
    · exact (hsucceeds hok).1 (hkeep.resolve_right fun hn => hn h.notice)
    · obtain ⟨hstdout, source, text, hs, ht, hsaved⟩ := (hsucceeds hok).2 target htarget
      exact ⟨hstdout, input, source, text, h.input, hs, ht, hsaved⟩

/-- **Changes come last.** A compilation of a file that fails leaves every file as it was. One that
succeeds saves the returned text where the output path leads, in UTF-8, and leaves all else as it
was; without an output path it leaves everything as it was.

A run that does not end with status 0 prints nothing to its standard output and leaves every file
as it was. So does one with status 0 to the files, unless an output path is in effect and no notice
is asked for. Then nothing is printed to the standard output, and what was asked for of the text of
the input is saved where the output path leads, even if that is the input itself. -/
theorem changes_come_last (io : Streams) (f : Frontend) (hf : f.Lawful io) (s : Store) :
    (∀ (path : String) (output : Option String),
      (∀ failure s', compileFile s path output = (.error failure, s') → s' = s) ∧
      ∀ t s', compileFile s path output = (.ok t, s') →
        (output.getD "" = "" → s' = s) ∧
        ∀ target ∈ output, target ≠ "" →
          s.Saved s' (normalizePath target) (String.ofList t).toUTF8.data.toList) ∧
    ∀ (stdin : Bytes) (arguments : List String),
      ((run f s stdin arguments).code ≠ 0 →
        (run f s stdin arguments).stdout = "" ∧ (run f s stdin arguments).store = s) ∧
      ((run f s stdin arguments).code = 0 → ∃ q, Reads arguments q ∧
        (q.output = none ∨ q.notice ≠ none → (run f s stdin arguments).store = s) ∧
        ∀ target ∈ q.output, q.notice = none →
          (run f s stdin arguments).stdout = "" ∧
          ∃ input source text, q.Opens io s stdin input ∧ input.text = .ok source ∧
            q.selected source = .ok text ∧
            s.Saved (run f s stdin arguments).store (normalizePath target)
              (String.ofList text).toUTF8.data.toList) := by
  simp only [← Utf8.encode_eq_toUTF8]
  constructor
  · intro path output
    have hchanges := (compileFile_cases s path output).changes
    refine ⟨fun failure s' h => ?_, fun t s' h => ?_⟩
    · rw [h] at hchanges
      exact hchanges.1 failure rfl
    · rw [h] at hchanges
      exact hchanges.2 t rfl
  · intro stdin arguments
    exact (run_course hf s stdin arguments).changes

/-- A file is written over by its own output, though by another path, but not if there is one option
too many. -/
theorem changes_come_last_in_place :
    (Frontend.standard {}).Lawful {} ∧
    callStore.Saved (run (Frontend.standard {}) callStore [] ["p", "-o", "/w/p"]).store "/w/p"
      [0x66, 0x28, 0x29, 0x3b] ∧
    (run (Frontend.standard {}) callStore [] ["p", "-o", "/w/p", "--no"]).store = callStore := by
  have hf : (Frontend.standard {}).Lawful {} := standard_lawful {}
  have hruns := (changes_come_last {} (Frontend.standard {}) hf callStore).2 []
  have hcode : (run (Frontend.standard {}) callStore [] ["p", "-o", "/w/p"]).code = 0 := by
    decide +kernel
  have hcode' : (run (Frontend.standard {}) callStore [] ["p", "-o", "/w/p", "--no"]).code ≠ 0 := by
    decide +kernel
  have hreads : Reads ["p", "-o", "/w/p"] { output := some "/w/p", operands := ["p"] } :=
    .item (.operand (.inr (by decide))) (.item (begins_output "/w/p" []) .nil)
  have hread : callStore.read "p" = .ok [0x28, 0x66, 0x29] := by decide +kernel
  have htext : Text.ofFile [0x28, 0x66, 0x29] = .ok ['(', 'f', ')'] := by decide +kernel
  have hselected : Invocation.selected { output := some "/w/p" } ['(', 'f', ')'] =
      .ok ['f', '(', ')', ';'] := by decide +kernel
  have hplace : normalizePath "/w/p" = "/w/p" := by decide
  have hbytes : (String.ofList ['f', '(', ')', ';']).toUTF8.data.toList =
      [0x66, 0x28, 0x29, 0x3b] := by decide +kernel
  refine ⟨hf, ?_, ((hruns ["p", "-o", "/w/p", "--no"]).1 hcode').2⟩
  obtain ⟨q, hq, -, hsaved⟩ := (hruns ["p", "-o", "/w/p"]).2 hcode
  obtain rfl := hq.unique hreads
  obtain ⟨-, input, source, text, hopens, hs, ht, hsaved⟩ := hsaved "/w/p" rfl rfl
  cases hopens with
  | piped _ h => simp at h
  | file _ h _ hread' =>
    cases h
    obtain rfl := Except.ok.inj (hread.symm.trans hread')
    obtain rfl := Except.ok.inj (htext.symm.trans hs)
    obtain rfl := Except.ok.inj (ht.symm.trans hselected)
    rw [hplace, hbytes] at hsaved
    exact hsaved

end CallNotation
