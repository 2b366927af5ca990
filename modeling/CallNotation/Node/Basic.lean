import CallNotation.Expr.Basic
import CallNotation.Node.Foreign

/-!
# Trees

One type holds the trees of both languages: that of a program, and that of the calls rendered from
it, where the callee is a node of its own and top-level calls are statements. Trees built by hand
may mix the two and hold foreign values anywhere, so each operation decides for itself which nodes
it takes.

Every node has a kind, by which handlers and messages name it. The two languages share the names of
kinds; what a node is, is told by its constructor and not by its kind.
-/

namespace CallNotation

/-- A node of a tree, of either language, or a value that is none. -/
inductive Node where
  /-- A program. -/
  | program (body : List Node)
  /-- A call of a name. -/
  | call (name : Text) (params : List Node)
  /-- A number. -/
  | number (value : Text)
  /-- A string. -/
  | string (value : Text)
  /-- A node of the language of programs that is none of its forms. -/
  | bare
  /-- A program to render. -/
  | targetProgram (body : List Node)
  /-- A statement to render. -/
  | statement (expression : Node)
  /-- A call to render. -/
  | targetCall (callee : Node) (arguments : List Node)
  /-- A callee to render. -/
  | identifier (name : Text)
  /-- A number to render. -/
  | targetNumber (value : Text)
  /-- A string to render. -/
  | targetString (value : Text)
  /-- A node of the language to render that is none of its forms. -/
  | targetBare
  /-- A value that is no node. -/
  | foreign (value : Foreign)

namespace Node

/-- The kind of the node. -/
def kind : Node → String
  | program _ => "Program"
  | call _ _ => "CallExpression"
  | number _ => "NumberLiteral"
  | string _ => "StringLiteral"
  | bare => "ASTNode"
  | targetProgram _ => "Program"
  | statement _ => "ExpressionStatement"
  | targetCall _ _ => "CallExpression"
  | identifier _ => "Identifier"
  | targetNumber _ => "NumberLiteral"
  | targetString _ => "StringLiteral"
  | targetBare => "CNode"
  | foreign value => value.kind

/-- The text that tells nodes of one kind apart: a call's name, a literal's value. -/
def label : Node → Text
  | call name _ => name
  | number value => value
  | string value => value
  | _ => []

end Node

mutual

/-- The tree of an expression. -/
def Expr.toNode : Expr → Node
  | .number digits => .number digits
  | .string value => .string value
  | .call name args => .call name (Expr.toNodes args)

/-- The trees of a list of expressions. -/
def Expr.toNodes : List Expr → List Node
  | [] => []
  | e :: es => Expr.toNode e :: Expr.toNodes es

end

/-- The tree of a program. -/
def Program.toNode (p : Program) : Node :=
  .program (Expr.toNodes p)

end CallNotation
