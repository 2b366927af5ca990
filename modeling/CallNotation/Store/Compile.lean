import CallNotation.Compile
import CallNotation.Failure

/-!
# Compiling files

A source file is read as strict UTF-8 with all line ends made line feeds, and compiled under the
path it was given by. `compileFile` writes the rendered text to a second file if it is given one
whose path is not empty; it writes last, so a run that fails has changed nothing.
-/

namespace CallNotation

/-- The text of a source file. -/
def Store.readSource (s : Store) (path : String) : Except Failure Text :=
  let place := normalizePath path
  match s.read place with
  | .error fault => .error (if fault.isAbsence then .noSource path else .file fault place)
  | .ok content =>
    match Text.ofFile content with
    | .error error => .error (.undecodable error)
    | .ok source => .ok source

/-- Writes a text to a file. -/
def Store.writeText (s : Store) (path : String) (t : Text) : Except Failure Store :=
  let place := normalizePath path
  match s.write place (Utf8.encode t) with
  | .error fault => .error (.file fault place)
  | .ok s => .ok s

/-- Compiles a source file. -/
def Compiler.compileFile (c : Compiler) (s : Store) (path : String) : Except Failure Result :=
  match s.readSource path with
  | .error failure => .error failure
  | .ok source =>
    match c.compileSource source path with
    | .error fault => .error (.fault fault)
    | .ok result => .ok result

/-- Compiles a source file and writes the rendered text to the file `output`, if there is one: the
rendered text, and the store afterwards. -/
def compileFile (s : Store) (path : String) (output : Option String) :
    Except Failure Text × Store :=
  match ({} : Compiler).compileFile s path with
  | .error failure => (.error failure, s)
  | .ok result =>
    match output with
    | none => (.ok result.output, s)
    | some target =>
      if target.isEmpty then (.ok result.output, s)
      else
        match s.writeText target result.output with
        | .error failure => (.error failure, s)
        | .ok s => (.ok result.output, s)

end CallNotation
