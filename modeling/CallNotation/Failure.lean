import CallNotation.Fault
import CallNotation.Store.Basic

/-!
# Failures

Why a run that reads and writes files does not do what it was asked for, and how the command line
reports it: a faulty program with status 1 and the fault as it is, a file that is not there or does
not hold text with status 2, and anything else with status 3 as an internal error.
-/

namespace CallNotation

/-- The reason why a run has failed. -/
inductive Failure where
  /-- The program is refused. -/
  | fault (fault : Fault)
  /-- There is no source file. -/
  | noSource (path : String)
  /-- A file cannot be read or written. -/
  | file (fault : FileFault) (path : String)
  /-- A source is not UTF-8. -/
  | undecodable (error : Utf8.DecodeError)
  /-- A file is missing, in the caller's words. -/
  | missing (message : String)
  /-- Access is refused, in the caller's words. -/
  | denied (message : String)
  /-- Something else, in the caller's words. -/
  | unexpected (message : String)
deriving DecidableEq

/-- What a run of the command line reports to its caller. -/
inductive ExitStatus where
  /-- All is done. -/
  | success
  /-- The program is at fault. -/
  | faultyProgram
  /-- The arguments or the files are at fault. -/
  | invalidUse
  /-- Something unforeseen is at fault. -/
  | internalError
deriving DecidableEq

/-- The status as a number. -/
def ExitStatus.code : ExitStatus → Nat
  | success => 0
  | faultyProgram => 1
  | invalidUse => 2
  | internalError => 3

namespace Failure

/-- The wording of the failure. -/
def message : Failure → String
  | .fault f => f.describe
  | .noSource path => s!"Source file not found: {path}"
  | .file f path =>
    let shown := String.ofList (Text.quoted path.toList)
    match f.number? with
    | some number => s!"[Errno {number}] {f.message}: {shown}"
    | none => f.message
  | .undecodable e => e.message
  | .missing message => message
  | .denied message => message
  | .unexpected message => message

/-- The status that reports the failure. -/
def status : Failure → ExitStatus
  | .fault _ => .faultyProgram
  | .noSource _ => .invalidUse
  | .file .missing _ => .invalidUse
  | .file .denied _ => .invalidUse
  | .file _ _ => .internalError
  | .undecodable _ => .invalidUse
  | .missing _ => .invalidUse
  | .denied _ => .invalidUse
  | .unexpected _ => .internalError

end Failure

/-- The line that a trace of an internal error begins with. -/
def traceHeader : String := "Traceback (most recent call last):\n"

/-- The report of a failure, of which the texts come out as `echo` says. Of a trace, only the line
that it begins with is reported. -/
def Failure.report (f : Failure) (echo : String → String) (verbose : Bool) : String :=
  match f.status with
  | .internalError =>
    echo s!"Internal error: {f.message}" ++ if verbose then traceHeader else ""
  | .invalidUse => echo s!"Error: {f.message}"
  | _ => echo f.message

end CallNotation
