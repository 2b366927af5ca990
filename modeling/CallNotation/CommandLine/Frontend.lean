import CallNotation.Store.Basic

/-!
# The front end of the command

Between the caller and the command stands a front end. It reads the arguments, shows a notice if one
is asked for, looks at the output path, opens the input and then calls the command; and the command
prints through it. It is no part of the program, which takes one as a parameter (`run`) and relies
on what such front ends have in common. `Frontend.standard` is one of them.

* `Invocation`, `Input`: what the command is called with.
* `Streams`: in which ways the standard streams of one run are not those of another.
-/

namespace CallNotation

/-- What the command is asked for. -/
structure Invocation where
  /-- The output file. -/
  output : Option String := none
  /-- Whether the tokens are to be shown. -/
  tokens : Bool := false
  /-- Whether the outline is to be shown. -/
  outline : Bool := false
  /-- Whether what is done is to be shown. -/
  verbose : Bool := false

/-- The input of the command. -/
structure Input where
  /-- The name. -/
  name : String
  /-- What comes of reading it. -/
  text : Except Utf8.DecodeError Text

/-- What a front end makes of a command line. -/
inductive Start where
  /-- It is refused, with a status and a report for the error stream. -/
  | refused (code : Nat) (report : String)
  /-- A notice is printed, and there is nothing else to do. -/
  | noticed (notice : String)
  /-- The command is called. -/
  | called (i : Invocation) (input : Input)

/-- The streams that are printed to. -/
inductive Channel where
  /-- The standard output. -/
  | output
  /-- The error stream. -/
  | error
deriving DecidableEq

/-- A front end. -/
structure Frontend where
  /-- What it makes of the arguments, with the files and the bytes of the standard input. -/
  start : Store → Bytes → List String → Start
  /-- What comes out at a stream when a text is printed there. -/
  echo : Channel → String → String

/-- What reading does to line ends. -/
inductive Newlines where
  /-- They stay as they are. -/
  | kept
  /-- They become line feeds. -/
  | unified
deriving DecidableEq

/-- The text that bytes are read as. -/
def Newlines.read : Newlines → Bytes → Except Utf8.DecodeError Text
  | kept, content => Utf8.decode content
  | unified, content => Text.ofFile content

/-- The standard streams of a run. -/
structure Streams where
  /-- What reading the standard input does to line ends. -/
  newlines : Newlines := .unified
  /-- Whether what is printed to a stream is shown by a terminal. -/
  isTerminal : Channel → Bool := fun _ => false

end CallNotation
