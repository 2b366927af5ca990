import CallNotation.Node.Walk

/-!
# From a program to the calls to render

`Rewriter.run` walks a program tree and keeps a stack of collections, innermost first, into which
target nodes are put. A literal goes into the innermost collection. A call opens a collection of
its own; when the call is left, that collection becomes the arguments of the target call, which
goes into the collection around it, as a statement unless the node around the call is a call. The
outermost collection becomes the body of the target program, so a program within a program adds to
the collection that is open.

* `Node.transform` is the rewriting of a whole program; it refuses a root that has no body.
-/

namespace CallNotation

/-- The collections that are open, innermost first. -/
structure Rewriter where
  /-- The target nodes put into each collection. -/
  collections : List (List Node) := []

namespace Rewriter

/-- Puts a target node into the innermost collection. -/
def put (node : Node) (r : Rewriter) : Rewriter :=
  match r.collections with
  | [] => r
  | c :: cs => { r with collections := (c ++ [node]) :: cs }

/-- Opens a collection. -/
def openCollection (r : Rewriter) : Rewriter :=
  { r with collections := [] :: r.collections }

/-- The target of a call, which is a statement unless it is an argument. -/
def targetOfCall (name : Text) (arguments : List Node) (parent : Option Node) : Node :=
  let call := Node.targetCall (.identifier name) arguments
  match parent with
  | some (.call _ _) => call
  | _ => .statement call

/-- Closes the innermost collection and puts the call that it belongs to into the next one. -/
def closeCollection (name : Text) (parent : Option Node) (r : Rewriter) : Rewriter :=
  match r.collections with
  | [] => r
  | c :: cs => put (targetOfCall name c parent) { r with collections := cs }

/-- The visitor that rewrites. -/
def visitor : Visitor Rewriter
  | "NumberLiteral" => { enter := some fun node _ r => r.put (.targetNumber node.label) }
  | "StringLiteral" => { enter := some fun node _ r => r.put (.targetString node.label) }
  | "CallExpression" =>
    { enter := some fun _ _ r => r.openCollection
      exit := some fun node parent r => r.closeCollection node.label parent }
  | _ => {}

/-- Rewrites a tree. Every run starts with one empty collection and ends with none. -/
def run (_ : Rewriter) (root : Node) : Except Fault Node × Rewriter :=
  match root.walk visitor ⟨[[]]⟩ with
  | ⟨r, none⟩ => (.ok (.targetProgram (r.collections.headD [])), {})
  | ⟨_, some fault⟩ => (.error fault, {})

end Rewriter

/-- Why a tree is not rewritten as a whole program. -/
inductive RewriteError where
  /-- The tree holds a node that the walk does not know. -/
  | fault (fault : Fault)
  /-- The root is not a program but a part of one. -/
  | noBody (kind : String)

/-- The wording of the error. -/
def RewriteError.message : RewriteError → String
  | .fault f => f.describe
  | .noBody kind => s!"'{kind}' object has no attribute 'body'"

namespace Node

/-- Rewrites a whole program. -/
def transform (root : Node) : Except RewriteError Node :=
  match (Rewriter.run {} root).1, root with
  | .error fault, _ => .error (.fault fault)
  | .ok target, program _ => .ok target
  | .ok _, node => .error (.noBody node.kind)

end Node

end CallNotation
