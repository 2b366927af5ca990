import CallNotation.CommandLine.Arguments
import CallNotation.CommandLine.Help
import CallNotation.Text.Styling

/-!
# The standard front end

The front end that the program comes with sorts the arguments, shows a notice if one is asked for,
looks at the output path, opens the input and refuses further operands, in this order. What it
prints to a stream that is no terminal goes out without style codes.
-/

namespace CallNotation

/-- A text as it comes out at a stream, with a line feed behind. -/
def Streams.echo (io : Streams) (channel : Channel) (t : String) : String :=
  (if io.isTerminal channel then t else String.ofList (Text.unstyled t.toList)) ++ "\n"

namespace UsageError

/-- The status that reports the error. -/
def code : UsageError → Nat
  | nullInPath => 1
  | _ => 2

/-- The report of the error. A path that cannot be handed to the system at all gets none. -/
def report (io : Streams) : UsageError → String
  | nullInPath => ""
  | e => (if e.isBrief then "" else usageReminder) ++ io.echo .error s!"Error: {e.message}"

end UsageError

/-- The operand that stands for the standard input. -/
def stdinOperand : String := "-"

/-- The name of the standard input. -/
def stdinName : String := "<stdin>"

namespace Request

/-- Looks at the output path. A path that leads nowhere passes. -/
def checkOutput (q : Request) (s : Store) : Except UsageError Unit :=
  match q.output with
  | none => .ok ()
  | some path =>
    match s.find path with
    | .error .nullCharacter => .error .nullInPath
    | .error _ => .ok ()
    | .ok (.directory _) => .error (.outputIsDirectory path)
    | .ok (.file rights _) => if rights.readable then .ok () else .error (.outputUnreadable path)

/-- The operand that names the input. -/
def inputOperand (q : Request) : String :=
  q.operands.headD stdinOperand

/-- Opens the input. -/
def openInput (q : Request) (io : Streams) (s : Store) (stdin : Bytes) : Except UsageError Input :=
  if q.inputOperand = stdinOperand then .ok ⟨stdinName, io.newlines.read stdin⟩
  else
    match s.read q.inputOperand with
    | .error .nullCharacter => .error .nullInPath
    | .error fault => .error (.inputUnreadable q.inputOperand fault)
    | .ok content => .ok ⟨q.inputOperand, Text.ofFile content⟩

/-- Looks at the output path, opens the input and refuses further operands. -/
def prepare (q : Request) (io : Streams) (s : Store) (stdin : Bytes) : Except UsageError Input :=
  match q.checkOutput s, q.openInput io s stdin, q.operands.drop 1 with
  | .error error, _, _ => .error error
  | .ok _, .error error, _ => .error error
  | .ok _, .ok input, [] => .ok input
  | .ok _, .ok _, operands => .error (.extraOperands operands)

end Request

/-- The text of a notice. -/
def Notice.text : Notice → String
  | version => versionText
  | help => helpText

/-- How a command line is refused. -/
def Start.ofError (io : Streams) (e : UsageError) : Start :=
  .refused e.code (e.report io)

/-- What the standard front end makes of a command line. -/
def Streams.start (io : Streams) (s : Store) (stdin : Bytes) (arguments : List String) : Start :=
  match Request.ofArguments arguments with
  | .error error => .ofError io error
  | .ok q =>
    match q.notice with
    | some notice => .noticed (io.echo .output notice.text)
    | none =>
      match q.prepare io s stdin with
      | .error error => .ofError io error
      | .ok input => .called q.toInvocation input

/-- **The standard front end**, for the standard streams of a run. -/
def Frontend.standard (io : Streams) : Frontend where
  start := io.start
  echo := io.echo

end CallNotation
