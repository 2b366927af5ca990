import CallNotation.Proofs.Compile.Characters
import CallNotation.Proofs.Store.Saving
import CallNotation.Proofs.Text.Stored
import CallNotation.Store.Compile

/-!
# Compiling files

A source file compiles to what its text compiles to, and that is written last if it is written at
all. `CompilesFile` lists the ways in which this can go. A source is read without carriage returns
and an output holds no character that its source does not hold, apart from a few marks; so outputs
are read back as they were written, although reading changes line ends and writing does not.

Results:
* `compileFile_cases`: a compilation of a file goes in one of the ways listed.
* **`compileFile_stored`**: a text is compiled from a file as it is compiled itself, but for its
  line ends, and an output in a file is read back as it is.
-/

namespace CallNotation

variable {s s' : Store} {path : String} {t : Text}

/-! ## Sources -/

theorem Store.readSource_of_read {content : Bytes}
    (h : s.read (normalizePath path) = .ok content) :
    s.readSource path = (Text.ofFile content).mapError .undecodable := by
  unfold Store.readSource
  simp only [h]
  cases Text.ofFile content <;> rfl

theorem Store.not_mem_of_readSource (h : s.readSource path = .ok t) : '\r' ∉ t := by
  unfold Store.readSource at h
  simp only at h
  split at h
  · cases h
  · split at h
    · cases h
    · rename_i source hsource
      cases h
      exact Text.not_mem_of_ofFile hsource

/-- A text without carriage returns is read back from a file that holds it and may be read. -/
theorem Store.readSource_of_find {rights : Rights}
    (h : s.find (normalizePath path) = .ok (.file rights (Utf8.encode t))) (ht : '\r' ∉ t)
    (hreadable : rights.readable = true) : s.readSource path = .ok t := by
  rw [readSource_of_read (read_eq_ok_iff.mpr ⟨rights, h, hreadable⟩), Text.ofFile_encode_eq_self ht]
  rfl

/-- What a source file compiles to. -/
def Store.compiled (s : Store) (path : String) : Except Failure Text :=
  match s.readSource path with
  | .error failure => .error failure
  | .ok source => (compile source).mapError .fault

/-- The name of a source says nothing about its output. -/
theorem compileSource_output (source : Text) (filename : String) :
    Result.output <$> ({} : Compiler).compileSource source filename = compile source := by
  unfold compile
  rw [compileSource_eq, compileSource_eq]
  cases scan source with
  | error f => rfl
  | ok ts =>
    simp only [if_pos (show Stage.parse ≤ Stage.generate from by decide)]
    cases parse ts with
    | error f => rfl
    | ok p => rfl

theorem compileFile_output (s : Store) (path : String) :
    Result.output <$> ({} : Compiler).compileFile s path = s.compiled path := by
  unfold Compiler.compileFile Store.compiled
  cases s.readSource path with
  | error failure => rfl
  | ok source =>
    simp only
    rw [← compileSource_output source path]
    cases ({} : Compiler).compileSource source path with
    | error f => rfl
    | ok r => rfl

/-- An output holds no carriage return. -/
theorem Store.not_mem_of_compiled (h : s.compiled path = .ok t) : '\r' ∉ t := by
  unfold Store.compiled at h
  cases hsource : s.readSource path with
  | error failure =>
    rw [hsource] at h
    cases h
  | ok source =>
    rw [hsource] at h
    cases hout : compile source with
    | error f =>
      simp only [hout] at h
      cases h
    | ok output =>
      simp only [hout] at h
      cases h
      intro hmem
      rcases mem_of_compile hout hmem with hmark | hmem
      · exact absurd hmark (by decide)
      · exact Store.not_mem_of_readSource hsource hmem

/-! ## Compiling a file -/

/-- **The ways in which the compilation of a file can go**: the result and the store afterwards. -/
inductive CompilesFile (s : Store) (path : String) :
    Option String → Except Failure Text → Store → Prop
  /-- There is no source, or it is no text, or the text is no program. -/
  | failed {output : Option String} {failure : Failure} (h : s.compiled path = .error failure) :
      CompilesFile s path output (.error failure) s
  /-- Nothing is to be written. -/
  | kept {output : Option String} {t : Text} (h : s.compiled path = .ok t)
      (ho : output.getD "" = "") : CompilesFile s path output (.ok t) s
  /-- The output cannot be written. -/
  | unwritten {target : String} {t : Text} {fault : FileFault} (h : s.compiled path = .ok t)
      (ht : target ≠ "")
      (hw : s.write (normalizePath target) (Utf8.encode t) = .error fault) :
      CompilesFile s path (some target) (.error (.file fault (normalizePath target))) s
  /-- The output is written. -/
  | written {target : String} {t : Text} {s' : Store} (h : s.compiled path = .ok t)
      (ht : target ≠ "") (hw : s.write (normalizePath target) (Utf8.encode t) = .ok s') :
      CompilesFile s path (some target) (.ok t) s'

theorem compileFile_cases (s : Store) (path : String) (output : Option String) :
    CompilesFile s path output (compileFile s path output).1 (compileFile s path output).2 := by
  have houtput := compileFile_output s path
  unfold compileFile
  cases hr : ({} : Compiler).compileFile s path with
  | error failure =>
    rw [hr] at houtput
    exact .failed houtput.symm
  | ok r =>
    rw [hr] at houtput
    simp only
    cases output with
    | none => exact .kept houtput.symm rfl
    | some target =>
      simp only
      split
      · rename_i hempty
        exact .kept houtput.symm (String.isEmpty_iff.mp hempty)
      · rename_i hne
        have ht : target ≠ "" := mt String.isEmpty_iff.mpr hne
        unfold Store.writeText
        simp only
        cases hw : s.write (normalizePath target) (Utf8.encode r.output) with
        | error fault => exact .unwritten houtput.symm ht hw
        | ok s' => exact .written houtput.symm ht hw

theorem compileFile_none (s : Store) (path : String) :
    compileFile s path none = (s.compiled path, s) := by
  have h := compileFile_cases s path none
  generalize compileFile s path none = outcome at h
  obtain ⟨result, after⟩ := outcome
  cases h with
  | failed h => rw [h]
  | kept h _ => rw [h]

/-- Where an output was written, it was saved. -/
theorem saved_of_compileFile {target : String} (ht : target ≠ "")
    (h : compileFile s path (some target) = (.ok t, s')) :
    s.compiled path = .ok t ∧ s.write (normalizePath target) (Utf8.encode t) = .ok s' := by
  have hcases := compileFile_cases s path (some target)
  rw [h] at hcases
  cases hcases with
  | kept _ ho => exact absurd ho ht
  | written h _ hw => exact ⟨h, hw⟩

/-- **Texts survive the way through files.** The text `x` in a file compiles to what it compiles to
by itself once its line ends are line feeds, or fails with the same fault. An output that was
written to a file is what the file is read as, so it is read back from there as it was returned if
the file may be read at all. -/
theorem compileFile_stored (s : Store) (path : String) :
    (∀ x : Text, s.read (normalizePath path) = .ok (Utf8.encode x) →
      (compileFile s path none).1 = (compile x.unifyNewlines).mapError .fault) ∧
    ∀ (target : String) (t : Text) (s' : Store), target ≠ "" →
      compileFile s path (some target) = (.ok t, s') →
        ∃ rights content, s'.find (normalizePath target) = .ok (.file rights content) ∧
          Text.ofFile content = .ok t ∧
          (rights.readable = true → s'.readSource target = .ok t) := by
  refine ⟨fun x hx => ?_, fun target t s' ht h => ?_⟩
  · rw [compileFile_none]
    unfold Store.compiled
    rw [Store.readSource_of_read hx, Text.ofFile_encode]
    rfl
  · obtain ⟨hcompiled, hw⟩ := saved_of_compileFile ht h
    have hcr : '\r' ∉ t := Store.not_mem_of_compiled hcompiled
    obtain ⟨rights, hfind⟩ := (Store.write_saved hw).find
    exact ⟨rights, _, hfind, Text.ofFile_encode_eq_self hcr, Store.readSource_of_find hfind hcr⟩

/-- Two calls, in a file with three kinds of line ends. -/
theorem compileFile_stored_line_ends :
    (compileFile { entries := [([['p']], .file {} (Utf8.encode "(f \"a\r\nb\")\r(g)\n".toList))] }
        "p" none).1 = (compile "(f \"a\nb\")\n(g)\n".toList).mapError .fault ∧
    ∃ s', compileFile
          { entries := [([['p']], .file {} (Utf8.encode "(f \"a\r\nb\")\r(g)\n".toList))] } "p"
          (some "q") = (.ok "f(\"a\nb\");\ng();".toList, s') ∧
      s'.readSource "q" = .ok "f(\"a\nb\");\ng();".toList := by
  have hread : ({ entries :=
      [([['p']], .file {} (Utf8.encode "(f \"a\r\nb\")\r(g)\n".toList))] } : Store).read
      (normalizePath "p") = .ok (Utf8.encode "(f \"a\r\nb\")\r(g)\n".toList) := by
    decide +kernel
  have hends : Text.unifyNewlines "(f \"a\r\nb\")\r(g)\n".toList =
      "(f \"a\nb\")\n(g)\n".toList := by decide +kernel
  have hresult : (compileFile
      { entries := [([['p']], .file {} (Utf8.encode "(f \"a\r\nb\")\r(g)\n".toList))] } "p"
      (some "q")).1 = .ok "f(\"a\nb\");\ng();".toList := by decide +kernel
  have hfind : (compileFile
      { entries := [([['p']], .file {} (Utf8.encode "(f \"a\r\nb\")\r(g)\n".toList))] } "p"
      (some "q")).2.find "q" = .ok (.file {} (Utf8.encode "f(\"a\nb\");\ng();".toList)) := by
    decide +kernel
  have hplace : normalizePath "q" = "q" := by decide
  obtain ⟨hsource, hback⟩ := compileFile_stored
    { entries := [([['p']], .file {} (Utf8.encode "(f \"a\r\nb\")\r(g)\n".toList))] } "p"
  have hback := hback "q" "f(\"a\nb\");\ng();".toList
  refine ⟨hends ▸ hsource _ hread, ?_⟩
  -- Only the result and the file are looked at, not the store that they come with.
  generalize compileFile _ "p" (some "q") = outcome at hback hresult hfind ⊢
  obtain ⟨result, s'⟩ := outcome
  obtain rfl : result = .ok _ := hresult
  obtain ⟨rights, content, hfound, -, hread⟩ := hback s' (by decide) rfl
  rw [hplace] at hfound
  have hfile := Except.ok.inj (hfound.symm.trans hfind)
  refine ⟨s', rfl, hread ?_⟩
  cases hfile
  rfl

end CallNotation
