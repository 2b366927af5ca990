import CallNotation.Text.Basic

/-!
# Paths

A path is text: parts with a slash between two of them, after a slash or two if it starts at the
root. `normalizePath` leaves out the parts that lead nowhere, which are the empty ones and `.`, and
writes a path without parts as `.`. A part `..` stays, since where it leads depends on the store.
-/

namespace CallNotation

/-- Splits a text at its slashes. -/
def splitSlash : Text → List Text
  | [] => [[]]
  | c :: t =>
    if c = '/' then [] :: splitSlash t
    else
      match splitSlash t with
      | [] => [[c]]
      | part :: parts => (c :: part) :: parts

/-- Whether a part leads nowhere. -/
def isIdlePart (part : Text) : Bool :=
  part = [] || part = ['.']

/-- What a path starts with: nothing, the root, or the root as two slashes. -/
def pathRoot : Text → Text
  | '/' :: '/' :: '/' :: _ => ['/']
  | '/' :: '/' :: _ => ['/', '/']
  | '/' :: _ => ['/']
  | _ => []

/-- The path without idle parts. -/
def normalizePath (path : String) : String :=
  let root := pathRoot path.toList
  let parts := (splitSlash path.toList).filter fun part => !isIdlePart part
  if root = [] ∧ parts = [] then "." else String.ofList (root ++ List.intercalate ['/'] parts)

example : normalizePath "./a//../b/" = "a/../b" := by decide

end CallNotation
