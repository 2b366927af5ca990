import CallNotation.CommandLine.Frontend
import CallNotation.Text.Quoted
import CallNotation.Text.Similar

/-!
# Arguments

An argument that starts with a hyphen and goes on is an option. After two hyphens stands the name
of one option, after one hyphen the letters of several. The option for the output file takes a
value: what follows `=` in a name, what follows the letter in a bundle, or else the next argument,
whatever that is. All other arguments are operands, and so is everything after `--`.

* `Request.ofArguments` sorts the arguments, without looking at any file.
-/

namespace CallNotation

/-- Why a command line is refused. -/
inductive UsageError where
  /-- The option that needs a value is last. -/
  | missingValue (option : String)
  /-- A value is given to an option that takes none. -/
  | needlessValue (option : String)
  /-- There is no such option, but there may be similar ones. -/
  | unknownOption (option : String) (similar : List String)
  /-- The output file is a directory. -/
  | outputIsDirectory (path : String)
  /-- The output file is there and may not be read. -/
  | outputUnreadable (path : String)
  /-- The input file cannot be opened. -/
  | inputUnreadable (path : String) (fault : FileFault)
  /-- There are operands after the input file. -/
  | extraOperands (operands : List String)
  /-- The path of the input or the output file holds a null character. -/
  | nullInPath

namespace UsageError

/-- The question whether another option was meant. -/
def suggestion : List String → String
  | [] => ""
  | [option] => s!" Did you mean {option}?"
  | options =>
    let shown := ", ".intercalate options
    s!" (Possible options: {shown})"

/-- The wording of the error. -/
def message : UsageError → String
  | missingValue option => s!"Option '{option}' requires an argument."
  | needlessValue option => s!"Option '{option}' does not take a value."
  | unknownOption option similar => s!"No such option: {option}" ++ suggestion similar
  | outputIsDirectory path =>
    let shown := String.ofList (Text.quoted path.toList)
    s!"Invalid value for '-o' / '--output': File {shown} is a directory."
  | outputUnreadable path =>
    let shown := String.ofList (Text.quoted path.toList)
    s!"Invalid value for '-o' / '--output': File {shown} is not readable."
  | inputUnreadable path fault =>
    s!"Invalid value for '[INPUT_FILE]': '{path}': {fault.message}"
  | extraOperands operands =>
    let shown := " ".intercalate operands
    let noun := if operands.length = 1 then "argument" else "arguments"
    s!"Got unexpected extra {noun} ({shown})"
  | nullInPath => FileFault.nullCharacter.message

/-- Whether the error is reported without a reminder of the usage. -/
def isBrief : UsageError → Bool
  | missingValue _ => true
  | needlessValue _ => true
  | _ => false

end UsageError

/-- What is shown in place of all else. -/
inductive Notice where
  /-- The version. -/
  | version
  /-- The help text. -/
  | help
deriving DecidableEq

/-- What the arguments ask for. -/
structure Request extends Invocation where
  /-- The first notice that is asked for. -/
  notice : Option Notice := none
  /-- The operands, the input file first. -/
  operands : List String := []

/-- The options that take no value. -/
inductive Switch where
  /-- Shows the tokens. -/
  | tokens
  /-- Shows the outline of the program. -/
  | outline
  /-- Shows what is done. -/
  | verbose
  /-- Shows a notice and does nothing else. -/
  | notice (notice : Notice)
deriving DecidableEq

namespace Switch

/-- The option with a name. -/
def ofName? : String → Option Switch
  | "--tokens" => some tokens
  | "--ast" => some outline
  | "--verbose" => some verbose
  | "--version" => some (notice .version)
  | "--help" => some (notice .help)
  | _ => none

/-- Sets the option in front of a request. -/
def set : Switch → Request → Request
  | tokens, q => { q with tokens := true }
  | outline, q => { q with outline := true }
  | verbose, q => { q with verbose := true }
  | notice n, q => { q with notice := some n }

end Switch

/-- The name of the option that takes a value. -/
def outputName : String := "--output"

/-- The names of all options. -/
def optionNames : List String :=
  [outputName, "--tokens", "--ast", "--verbose", "--version", "--help"]

/-- The error that there is no option with a name. -/
def UsageError.unknownName (option : String) : UsageError :=
  .unknownOption option
    ((Text.mostSimilar option.toList (optionNames.map String.toList)).map String.ofList)

/-- What one argument says. -/
inductive Argument where
  /-- It is an operand. -/
  | operand
  /-- The arguments behind it are operands. -/
  | endOfOptions
  /-- It sets options that take no value. -/
  | switches (switches : List Switch)
  /-- It sets such options, and the output file. -/
  | output (switches : List Switch) (path : String)
  /-- It sets such options, and the output file to the next argument. -/
  | awaitsOutput (switches : List Switch) (option : String)
  /-- It is refused. -/
  | bad (error : UsageError)

namespace Argument

/-- Reads an option with a name, `rest` being what stands behind the name. -/
def ofNamed (option : String) (rest : Text) : Argument :=
  if option = outputName then
    match rest with
    | [] => .awaitsOutput [] option
    | _ :: path => .output [] (String.ofList path)
  else
    match Switch.ofName? option, rest with
    | none, _ => .bad (.unknownName option)
    | some switch, [] => .switches [switch]
    | some _, _ :: _ => .bad (.needlessValue option)

/-- Reads an option given by name, its hyphens included. -/
def ofName (t : Text) : Argument :=
  let name := t.takeWhile (· ≠ '=')
  ofNamed (String.ofList name) (t.drop name.length)

/-- Reads the letters of a bundle, of which `before` has been read. -/
def ofLetters (before : List Switch) : Text → Argument
  | [] => .switches before
  | c :: t =>
    if c = 'v' then ofLetters (before ++ [.verbose]) t
    else if c = 'o' then
      if t.isEmpty then .awaitsOutput before "-o" else .output before (String.ofList t)
    else .bad (.unknownOption (String.ofList ['-', c]) [])

/-- Reads an argument. -/
def ofString (argument : String) : Argument :=
  match argument.toList with
  | ['-', '-'] => .endOfOptions
  | '-' :: '-' :: t => ofName ('-' :: '-' :: t)
  | '-' :: c :: t => ofLetters [] (c :: t)
  | _ => .operand

end Argument

namespace Request

/-- Sets options in front of a request. -/
def setAll (switches : List Switch) (q : Request) : Request :=
  switches.foldr Switch.set q

/-- Sets options and the output file in front of a request, which may name another file itself. -/
def setOutput (switches : List Switch) (path : String) (q : Request) : Request :=
  setAll switches { q with output := q.output.or (some path) }

/-- Puts an operand in front of a request. -/
def addOperand (operand : String) (q : Request) : Request :=
  { q with operands := operand :: q.operands }

/-- Sorts the arguments of a command line. -/
def ofArguments : List String → Except UsageError Request
  | [] => .ok {}
  | argument :: rest =>
    match Argument.ofString argument with
    | .operand => (ofArguments rest).map (addOperand argument)
    | .endOfOptions => .ok { operands := rest }
    | .switches switches => (ofArguments rest).map (setAll switches)
    | .output switches path => (ofArguments rest).map (setOutput switches path)
    | .awaitsOutput switches option =>
      match rest with
      | [] => .error (.missingValue option)
      | path :: rest => (ofArguments rest).map (setOutput switches path)
    | .bad error => .error error

end Request

end CallNotation
