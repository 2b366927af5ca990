import CallNotation.CommandLine.Run
import CallNotation.CommandLine.Standard

/-!
# The program `tinyc`

Runs the command line on the files of the machine: the entries that the arguments can reach are
looked up first, the run is computed on them, and the file it has written is written then. Of the
rights to an entry, those are found that opening it tells; a directory counts as one that may be
changed.
-/

namespace CallNotation.Main

/-- The number by which the machine tells that there is a directory in the place of a file. -/
def directoryNumber : UInt32 := 21

/-- Whether an action succeeds. -/
def succeeds {α : Type} (action : IO α) : IO Bool := do
  try
    let _ ← action
    return true
  catch _ => return false

/-- The entry of the machine at a path, if there is one. -/
def probe (path : String) : IO (Option Entry) := do
  try
    let content ← IO.FS.readBinFile path
    let writable ← succeeds (IO.FS.Handle.mk path .readWrite)
    return some (.file { writable } content.toList)
  catch e =>
    match e with
    | .inappropriateType _ number _ =>
      return if number = directoryNumber then some (.directory {}) else none
    | .permissionDenied .. =>
      let writable ← succeeds (IO.FS.Handle.mk path .append)
      return some (.file { readable := false, writable } [])
    | _ => return none

/-- The path from the root to a location. -/
def absolutePath (l : Location) : String :=
  String.ofList ('/' :: List.intercalate ['/'] l)

/-- Adds the entries that the parts of a path lead through from `here`. -/
def explore (s : Store) (here : Location) : List Text → IO Store
  | [] => return s
  | part :: parts => do
    let place := here.step part
    let s ← match ← probe (absolutePath place) with
      | some entry => pure (s.put place entry)
      | none => pure s
    explore s place parts

/-- Adds the entries that a path leads through. -/
def explorePath (s : Store) (path : String) : IO Store :=
  match splitSlash path.toList with
  | [] :: parts => explore s [] parts
  | parts => explore s s.working parts

/-- The part of the machine's files that a run can reach. -/
def reachable (q : Request) : IO Store := do
  let here := toString (← IO.currentDir)
  let working := (splitSlash here.toList).filter fun part => !isIdlePart part
  let s ← explorePath { working } here
  let s ← explorePath s q.inputOperand
  match q.output with
  | some path => explorePath s path
  | none => return s

/-- The standard streams of the machine. -/
def streams : IO Streams := do
  let output ← (← IO.getStdout).isTty
  let error ← (← IO.getStderr).isTty
  return {
    newlines := .kept
    isTerminal := fun channel => if channel = .output then output else error }

/-- Makes the change that a run has made to its output file. -/
def commit (q : Request) (s : Store) : IO Unit := do
  if let some path := q.output then
    if let .ok (.file _ content) := s.find (normalizePath path) then
      IO.FS.writeBinFile (normalizePath path) (ByteArray.mk content.toArray)

end CallNotation.Main

open CallNotation in
/-- Runs the command line. -/
def main (arguments : List String) : IO UInt32 := do
  let request := (Request.ofArguments arguments).toOption.getD {}
  let files ← Main.reachable request
  let readsStdin := request.notice.isNone && request.inputOperand == stdinOperand
  let stdin ← if readsStdin then (← IO.getStdin).readBinToEnd else pure ByteArray.empty
  let outcome := run (Frontend.standard (← Main.streams)) files stdin.toList arguments
  IO.print outcome.stdout
  IO.eprint outcome.stderr
  if outcome.code = 0 && request.notice.isNone then
    Main.commit request outcome.store
  return outcome.code.toUInt32
