import CallNotation.Expr.Parse
import CallNotation.Node.Render
import CallNotation.Node.Rewrite
import CallNotation.Token.Scan

/-!
# Compiling a program text

A program text goes through four stages: it is read as tokens, these as a program, the program is
rewritten into the calls to render, and these are rendered. A compiler may be told to stop after an
earlier stage. The first fault ends the run.

* `compileNoting` runs the stages and notes what each of them has done;
* `Compiler.compileSource` leaves the notes out;
* `compile` gives the rendered text alone.
-/

namespace CallNotation

/-- The stages of a compilation, in their order. -/
inductive Stage where
  /-- Reading the text as tokens. -/
  | scan
  /-- Reading the tokens as a program. -/
  | parse
  /-- Rewriting the program into the calls to render. -/
  | transform
  /-- Rendering these. -/
  | generate
deriving DecidableEq

namespace Stage

/-- The place of the stage in the order. -/
def index : Stage → Nat
  | scan => 1
  | parse => 2
  | transform => 3
  | generate => 4

/-- The name of the stage. -/
def label : Stage → String
  | scan => "SCAN"
  | parse => "PARSE"
  | transform => "TRANSFORM"
  | generate => "GENERATE"

instance : LE Stage where
  le a b := a.index ≤ b.index

instance (a b : Stage) : Decidable (a ≤ b) :=
  inferInstanceAs (Decidable (a.index ≤ b.index))

end Stage

/-- What a compilation has produced. -/
structure Result where
  /-- The name of the source. -/
  filename : String
  /-- The tokens of the source. -/
  tokens : List Token
  /-- The program, if it was read. -/
  program : Option Program := none
  /-- The tree to render, if the program was rewritten. -/
  target : Option Node := none
  /-- The rendered text, empty if nothing was rendered. -/
  output : Text := []

/-- What a run has done. -/
inductive Note where
  /-- A source has been read. -/
  | read (characters : Nat) (name : String)
  /-- The compilation of a source has begun. -/
  | compiling (name : String) (last : Stage)
  /-- The text has been read as tokens. -/
  | scanned (tokens characters : Nat)
  /-- The tokens have been read as a program. -/
  | parsed (expressions : Nat)
  /-- The program has been rewritten. -/
  | transformed (expressions : Nat)
  /-- The calls have been rendered. -/
  | generated (characters : Nat)
  /-- A file has been written. -/
  | wrote (characters : Nat) (path : String)
deriving DecidableEq

/-- The wording of the note. -/
def Note.message : Note → String
  | read characters name => s!"Read {characters} characters from {name}"
  | compiling name last => s!"Compiling {name} (stop after {last.label})"
  | scanned tokens characters => s!"Scanned {tokens} tokens from {characters} characters"
  | parsed expressions => s!"Parsed {expressions} top-level expressions"
  | transformed expressions => s!"Transformed {expressions} top-level expressions"
  | generated characters => s!"Generated {characters} characters"
  | wrote characters path => s!"Wrote {characters} characters to {path}"

/-- What a run has come to, and the notes it has made on the way. -/
structure Noted (ε α : Type) where
  /-- The notes, in the order they were made. -/
  notes : List Note
  /-- The result, or why there is none. -/
  result : Except ε α

namespace Noted

variable {ε α : Type}

/-- The same run with notes made before it. -/
def after (notes : List Note) (r : Noted ε α) : Noted ε α :=
  { r with notes := notes ++ r.notes }

/-- A run that makes no note. -/
def quiet (result : Except ε α) : Noted ε α :=
  ⟨[], result⟩

end Noted

/-! ## The stages -/

/-- The last stage: renders the target of the result so far. -/
def generateStage (target : Node) (r : Result) : Noted Fault Result :=
  match target.render with
  | .error fault => .quiet (.error fault)
  | .ok output => ⟨[.generated output.length], .ok { r with output }⟩

/-- Rewrites the program of the result so far and goes on up to the stage `last`. -/
def transformStage (last : Stage) (program : Program) (r : Result) : Noted Fault Result :=
  match (Rewriter.run {} program.toNode).1 with
  | .error fault => .quiet (.error fault)
  | .ok target =>
    let r := { r with target := some target }
    .after [.transformed program.length]
      (if .generate ≤ last then generateStage target r else .quiet (.ok r))

/-- Reads the tokens of the result so far as a program and goes on up to the stage `last`. -/
def parseStage (last : Stage) (r : Result) : Noted Fault Result :=
  match parse r.tokens with
  | .error fault => .quiet (.error fault)
  | .ok program =>
    let r := { r with program := some program }
    .after [.parsed program.length]
      (if .transform ≤ last then transformStage last program r else .quiet (.ok r))

/-- Compiles a text up to the stage `last`. -/
def compileNoting (last : Stage) (filename : String) (source : Text) : Noted Fault Result :=
  .after [.compiling filename last]
    (match scan source with
    | .error fault => .quiet (.error fault)
    | .ok tokens =>
      let r : Result := { filename, tokens }
      .after [.scanned tokens.length source.length]
        (if .parse ≤ last then parseStage last r else .quiet (.ok r)))

/-! ## Compilers -/

/-- A compiler and its settings. -/
structure Compiler where
  /-- The last stage to run. -/
  stopAfter : Stage := .generate

namespace Compiler

/-- The name of a source that has none. -/
def unnamed : String := "<input>"

/-- Compiles a text. -/
def compileSource (c : Compiler) (source : Text) (filename : String := unnamed) :
    Except Fault Result :=
  (compileNoting c.stopAfter filename source).result

end Compiler

/-- The rendered text of a program text. -/
def compile (source : Text) : Except Fault Text :=
  Result.output <$> ({} : Compiler).compileSource source

end CallNotation
