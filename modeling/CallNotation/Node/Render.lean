import CallNotation.Fault
import CallNotation.Node.Basic

/-!
# Rendering

A target tree is rendered as text: the parts of a program joined by one separator, the arguments of
a call by another, a semicolon after a statement, a string in double quotes and everything else as
it stands. The first node that is not of the target language is refused; a call's arguments are
looked at before its callee.
-/

namespace CallNotation

/-- What is put between the parts of a program and between arguments. -/
structure Separators where
  /-- Between the parts of a program. -/
  statements : Text := ['\n']
  /-- Between the arguments of a call. -/
  arguments : Text := [',', ' ']

namespace Node

mutual

/-- Renders a tree. -/
def renderWith (s : Separators) : Node → Except Fault Text
  | targetProgram body => do
    let parts ← renderAll s body
    return List.intercalate s.statements parts
  | statement expression => do
    let text ← renderWith s expression
    return text ++ [';']
  | targetCall callee arguments => do
    let parts ← renderAll s arguments
    let name ← renderWith s callee
    return name ++ '(' :: List.intercalate s.arguments parts ++ [')']
  | identifier name => return name
  | targetNumber value => return value
  | targetString value => return '"' :: value ++ ['"']
  | node => throw (.unrenderable node.kind)

/-- Renders each tree of a list. -/
def renderAll (s : Separators) : List Node → Except Fault (List Text)
  | [] => return []
  | n :: ns => do
    let part ← renderWith s n
    let parts ← renderAll s ns
    return part :: parts

end

/-- Renders a tree with a line feed between parts and a comma and a blank between arguments. -/
def render (n : Node) : Except Fault Text :=
  n.renderWith {}

end Node

end CallNotation
