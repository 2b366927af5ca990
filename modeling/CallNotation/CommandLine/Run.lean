import CallNotation.CommandLine.Frontend
import CallNotation.Node.Outline
import CallNotation.Store.Compile

/-!
# Running the command line

Once its front end has called it, the command reads the input, compiles it and writes. Each step
that fails ends the run, and the only file that a run may change is the output file, as its last
act. In a verbose run the notes of what has been done go to the error stream, before the report of a
failure.

What stands in front of the command is a parameter, and so is what a stream makes of a text that is
printed, for it may be a terminal or not. Out of scope are a stream that cannot be printed to, a run
that is interrupted, and what a trace says behind its first line.
-/

namespace CallNotation

/-- What a run leaves behind. -/
structure Outcome where
  /-- The status reported to the caller. -/
  code : Nat
  /-- What was printed. -/
  stdout : String := ""
  /-- What was printed to the error stream. -/
  stderr : String := ""
  /-- The store after the run. -/
  store : Store

/-- The tokens of a program, a line for each. -/
def tokenDump (ts : List Token) : Text :=
  Text.joinLines (ts.map Token.dumpLine)

/-- The notes of a verbose run. -/
def showNotes (notes : List Note) : String :=
  String.join (notes.map fun note => s!"DEBUG: {note.message}\n")

namespace Invocation

/-- The last stage to run. -/
def lastStage (i : Invocation) : Stage :=
  if i.tokens then .scan else if i.outline then .parse else .generate

/-- The text that is asked for, from the result of a compilation. -/
def select (i : Invocation) (r : Result) : Except Fault Text :=
  if i.tokens then .ok (tokenDump r.tokens)
  else if i.outline then
    match r.program with
    | some program => program.toNode.outline
    | none => .ok []
  else .ok r.output

/-- Reads and compiles the input. -/
def process (i : Invocation) (input : Input) : Noted Failure Text :=
  match input.text with
  | .error error => .quiet (.error (.undecodable error))
  | .ok source =>
    let compiled := compileNoting i.lastStage input.name source
    .after (.read source.length input.name :: compiled.notes)
      (match compiled.result with
      | .error fault => .quiet (.error (.fault fault))
      | .ok result =>
        match i.select result with
        | .error fault => .quiet (.error (.fault fault))
        | .ok text => .quiet (.ok text))

/-- What a run leaves behind that has come to `status`, with the notes it has made. -/
def conclude (i : Invocation) (s : Store) (status : ExitStatus) (notes : List Note)
    (stdout stderr : String) : Outcome :=
  { code := status.code, stdout, stderr := (if i.verbose then showNotes notes else "") ++ stderr,
    store := s }

/-- What a run leaves behind that has failed. -/
def fail (i : Invocation) (f : Frontend) (s : Store) (notes : List Note) (failure : Failure) :
    Outcome :=
  i.conclude s failure.status notes "" (failure.report (f.echo .error) i.verbose)

/-- Reads, compiles and writes. -/
def execute (i : Invocation) (f : Frontend) (s : Store) (input : Input) : Outcome :=
  let processed := i.process input
  match processed.result, i.output with
  | .error failure, _ => i.fail f s processed.notes failure
  | .ok text, none =>
    i.conclude s .success processed.notes (f.echo .output (String.ofList text)) ""
  | .ok text, some path =>
    match s.writeText path text with
    | .error failure => i.fail f s processed.notes failure
    | .ok written =>
      let target := normalizePath path
      i.conclude written .success (processed.notes ++ [.wrote text.length target]) ""
        (f.echo .error s!"Compiled {input.name} -> {target}")

end Invocation

/-- Runs the command line on a store, with the bytes of the standard input. -/
def run (f : Frontend) (s : Store) (stdin : Bytes) (arguments : List String) : Outcome :=
  match f.start s stdin arguments with
  | .refused code report => { code, stderr := report, store := s }
  | .noticed notice => { code := ExitStatus.success.code, stdout := notice, store := s }
  | .called i input => i.execute f s input

end CallNotation
