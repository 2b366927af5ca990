import CallNotation.Fault
import CallNotation.Node.Basic

/-!
# Walking a program tree

`Node.walk` goes through a tree depth first. At each node it calls the visitor's `enter` for the
node's kind, goes through the children in order and calls `exit`; a callback that is not there is
passed over. The visitor's state goes from callback to callback. Only the four forms of program
nodes are walked. At any other node the walk stops before that node's `enter`, with the state as it
is then: the nodes around it have been entered and are not exited.

Out of scope are callbacks that fail or change the tree, and the room that a recursion takes.

`Node.record` walks with a visitor that writes down the callbacks it is told to listen to.
-/

namespace CallNotation

/-- A reaction to a node, given the node around it. -/
abbrev Callback (σ : Type) :=
  Node → Option Node → σ → σ

/-- The reactions to nodes of one kind. -/
structure Handlers (σ : Type) where
  /-- Called before the children are walked. -/
  enter : Option (Callback σ) := none
  /-- Called after the children have been walked. -/
  exit : Option (Callback σ) := none

/-- The reactions to nodes, by kind. -/
abbrev Visitor (σ : Type) :=
  String → Handlers σ

/-- How a walk ended. -/
structure Walk (σ : Type) where
  /-- The state after the last callback. -/
  state : σ
  /-- The fault that stopped the walk, if one did. -/
  fault? : Option Fault

namespace Visitor

variable {σ : Type}

/-- Reacts to entering a node. -/
def enter (v : Visitor σ) (node : Node) (parent : Option Node) (s : σ) : σ :=
  match (v node.kind).enter with
  | some callback => callback node parent s
  | none => s

/-- Reacts to leaving a node. -/
def exit (v : Visitor σ) (node : Node) (parent : Option Node) (s : σ) : σ :=
  match (v node.kind).exit with
  | some callback => callback node parent s
  | none => s

/-- Reacts to leaving a node, unless the walk has stopped among its children. -/
def leave (v : Visitor σ) (node : Node) (parent : Option Node) (w : Walk σ) : Walk σ :=
  match w.fault? with
  | none => ⟨v.exit node parent w.state, none⟩
  | some _ => w

end Visitor

namespace Node

variable {σ : Type}

mutual

/-- Walks a tree that stands within `parent`. -/
def walkFrom (v : Visitor σ) (parent : Option Node) : Node → σ → Walk σ
  | program body, s =>
    v.leave (program body) parent
      (walkAll v (program body) body (v.enter (program body) parent s))
  | call name params, s =>
    v.leave (call name params) parent
      (walkAll v (call name params) params (v.enter (call name params) parent s))
  | number value, s =>
    v.leave (number value) parent ⟨v.enter (number value) parent s, none⟩
  | string value, s =>
    v.leave (string value) parent ⟨v.enter (string value) parent s, none⟩
  | node, s => ⟨s, some (.unwalkable node.kind)⟩

/-- Walks the children of `parent` in order, up to the first that stops the walk. -/
def walkAll (v : Visitor σ) (parent : Node) : List Node → σ → Walk σ
  | [], s => ⟨s, none⟩
  | n :: ns, s =>
    match walkFrom v (some parent) n s with
    | ⟨s, none⟩ => walkAll v parent ns s
    | stopped => stopped

end

/-- Walks a tree. -/
def walk (v : Visitor σ) (root : Node) (s : σ) : Walk σ :=
  walkFrom v none root s

end Node

/-! ## Recording a walk -/

/-- The two times at which a node is visited. -/
inductive Phase where
  /-- Before its children. -/
  | enter
  /-- After its children. -/
  | exit
deriving DecidableEq

/-- A visit of a node, with the kind and the label of the node and of the one around it. -/
structure Event where
  /-- The time of the visit. -/
  phase : Phase
  /-- The kind of the node. -/
  kind : String
  /-- The label of the node. -/
  label : Text
  /-- Kind and label of the node around it. -/
  parent : Option (String × Text)
deriving DecidableEq

/-- The event of visiting a node. -/
def Event.ofNode (phase : Phase) (node : Node) (parent : Option Node) : Event :=
  ⟨phase, node.kind, node.label, parent.map fun p => (p.kind, p.label)⟩

/-- A visitor that adds the events it listens to at the end of a list. -/
def Visitor.recorder (listens : String → Phase → Bool) : Visitor (List Event) := fun kind =>
  let callback (phase : Phase) : Option (Callback (List Event)) :=
    if listens kind phase then
      some fun node parent events => events ++ [Event.ofNode phase node parent]
    else none
  { enter := callback .enter, exit := callback .exit }

/-- The events of walking a tree that are listened to, up to the fault that stopped the walk. -/
def Node.record (listens : String → Phase → Bool) (root : Node) : Walk (List Event) :=
  root.walk (Visitor.recorder listens) []

end CallNotation
