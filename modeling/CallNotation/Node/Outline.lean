import CallNotation.Node.Walk

/-!
# Outlines

The outline of a program tree has one entry for each node, in the order in which a walk enters
them, indented by two blanks for each node around it. `Outline.print` writes it with a counter for
the indentation, which entering a program or a call raises and leaving it lowers. What an earlier
print left behind is dropped; what a print that stopped has written is kept.
-/

namespace CallNotation

/-- The entries written so far and the current indentation. -/
structure Outline where
  /-- The entries. -/
  lines : List Text := []
  /-- The number of nodes that are entered and not left. -/
  indent : Nat := 0

namespace Outline

/-- Writes an entry. -/
def emit (entry : Text) (o : Outline) : Outline :=
  { o with lines := o.lines ++ [List.replicate (2 * o.indent) ' ' ++ entry] }

/-- Writes an entry and indents what follows. -/
def openEntry (entry : Text) (o : Outline) : Outline :=
  let o := o.emit entry
  { o with indent := o.indent + 1 }

/-- Ends the indentation of the innermost entry. -/
def closeEntry (o : Outline) : Outline :=
  { o with indent := o.indent - 1 }

/-- The entry of a node, without its indentation. -/
def entry : Node → Text
  | .program _ => "Program".toList
  | .call name _ => "Call: ".toList ++ name
  | .number value => "Number: ".toList ++ value
  | .string value => "String: \"".toList ++ value ++ ['"']
  | _ => []

/-- The visitor that writes an outline. -/
def visitor : Visitor Outline := fun kind =>
  let opening : Handlers Outline :=
    { enter := some fun node _ o => o.openEntry (entry node)
      exit := some fun _ _ o => o.closeEntry }
  let single : Handlers Outline := { enter := some fun node _ o => o.emit (entry node) }
  match kind with
  | "Program" => opening
  | "CallExpression" => opening
  | "NumberLiteral" => single
  | "StringLiteral" => single
  | _ => {}

/-- Writes the outline of a tree: the text, or the fault that stopped the walk. -/
def print (_ : Outline) (root : Node) : Except Fault Text × Outline :=
  match root.walk visitor {} with
  | ⟨o, none⟩ => (.ok (Text.joinLines o.lines), o)
  | ⟨o, some fault⟩ => (.error fault, o)

end Outline

/-- The outline of a tree. -/
def Node.outline (root : Node) : Except Fault Text :=
  (Outline.print {} root).1

end CallNotation
