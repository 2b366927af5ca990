import CallNotation.Node.Render
import CallNotation.Node.Rewrite

/-!
# What a program is rewritten to, and how that is rendered

`Rewriter.run` keeps a stack of collections and is driven by a walk. Here the same is said by
recursion on the tree: `Node.targets` are the target nodes of a program node within a parent, and
`Program.target` is the tree they make of a program. `Program.rendering` is the text of a program:
its items one to a line, a call as its name and its arguments in parentheses, a semicolon behind a
call at the top level.

Results:
* **`walkFrom_targets`**: walking a program node adds its targets to the innermost collection and
  leaves the others as they are.
* `Program.run_toNode`, `Program.render_target`: a program is rewritten to its target, and that is
  rendered as its rendering; neither fails.
-/

namespace CallNotation

/-! ## The rewriting by recursion -/

namespace Node

mutual

/-- The target nodes of a program node that stands within `parent`. -/
def targets (parent : Option Node) : Node → List Node
  | program body => allTargets (program body) body
  | call name params =>
    [Rewriter.targetOfCall name (allTargets (call name params) params) parent]
  | number value => [targetNumber value]
  | string value => [targetString value]
  | _ => []

/-- The target nodes of the children of `parent`, in order. -/
def allTargets (parent : Node) : List Node → List Node
  | [] => []
  | n :: ns => targets (some parent) n ++ allTargets parent ns

end

mutual

/-- The node and all below it are of the four forms that a walk takes. -/
def Walkable : Node → Prop
  | program body => AllWalkable body
  | call _ params => AllWalkable params
  | number _ => True
  | string _ => True
  | _ => False

/-- All the nodes are. -/
def AllWalkable : List Node → Prop
  | [] => True
  | n :: ns => n.Walkable ∧ AllWalkable ns

end

open Rewriter (visitor)

mutual

/-- **Walking a node adds its targets to the innermost collection.** -/
theorem walkFrom_targets : ∀ (n : Node) (parent : Option Node) (c : List Node)
    (cs : List (List Node)), n.Walkable →
      walkFrom visitor parent n ⟨c :: cs⟩ = ⟨⟨(c ++ n.targets parent) :: cs⟩, none⟩
  | program body, parent, c, cs, h => by
    have hbody := walkAll_targets body (program body) c cs h
    rw [walkFrom, show visitor.enter (program body) parent ⟨c :: cs⟩ = ⟨c :: cs⟩ from rfl, hbody]
    rfl
  | call name params, parent, c, cs, h => by
    have hparams := walkAll_targets params (call name params) [] (c :: cs) h
    rw [walkFrom, show visitor.enter (call name params) parent ⟨c :: cs⟩ = ⟨[] :: c :: cs⟩ from rfl,
      hparams]
    rfl
  | number value, parent, c, cs, _ => rfl
  | string value, parent, c, cs, _ => rfl

theorem walkAll_targets : ∀ (ns : List Node) (parent : Node) (c : List Node)
    (cs : List (List Node)), AllWalkable ns →
      walkAll visitor parent ns ⟨c :: cs⟩ = ⟨⟨(c ++ allTargets parent ns) :: cs⟩, none⟩
  | [], parent, c, cs, _ => by
    rw [allTargets, List.append_nil]
    rfl
  | n :: ns, parent, c, cs, h => by
    rw [walkAll, walkFrom_targets n (some parent) c cs h.1]
    simp only
    rw [walkAll_targets ns parent _ cs h.2, allTargets, List.append_assoc]

end

end Node

/-! ## Programs -/

namespace Expr

mutual

theorem walkable_toNode : ∀ e : Expr, e.toNode.Walkable
  | number _ => trivial
  | string _ => trivial
  | call _ args => allWalkable_toNodes args

theorem allWalkable_toNodes : ∀ es : List Expr, Node.AllWalkable (toNodes es)
  | [] => trivial
  | e :: es => ⟨walkable_toNode e, allWalkable_toNodes es⟩

end

mutual

/-- The target of an expression that is an argument. -/
def target : Expr → Node
  | number digits => .targetNumber digits
  | string value => .targetString value
  | call name args => .targetCall (.identifier name) (listTargets args)

/-- The targets of arguments. -/
def listTargets : List Expr → List Node
  | [] => []
  | e :: es => e.target :: listTargets es

end

/-- The target of an expression at the top level, where a call is a statement. -/
def item : Expr → Node
  | call name args => .statement (call name args).target
  | e => e.target

mutual

theorem targets_toNode (name : Text) (params : List Node) : ∀ e : Expr,
    e.toNode.targets (some (.call name params)) = [e.target]
  | number _ => rfl
  | string _ => rfl
  | call name' args => by
    rw [toNode, Node.targets, allTargets_toNodes name' _ args]
    rfl

theorem allTargets_toNodes (name : Text) (params : List Node) : ∀ es : List Expr,
    Node.allTargets (.call name params) (toNodes es) = listTargets es
  | [] => rfl
  | e :: es => by
    rw [toNodes, Node.allTargets, targets_toNode name params e, allTargets_toNodes name params es]
    rfl

end

theorem targets_item (body : List Node) (e : Expr) :
    e.toNode.targets (some (.program body)) = [e.item] := by
  cases e with
  | number _ => rfl
  | string _ => rfl
  | call name args =>
    rw [toNode, Node.targets, allTargets_toNodes]
    rfl

theorem allTargets_items (body : List Node) : ∀ es : List Expr,
    Node.allTargets (.program body) (toNodes es) = es.map item
  | [] => rfl
  | e :: es => by
    rw [toNodes, Node.allTargets, targets_item, allTargets_items body es]
    rfl

end Expr

namespace Program

/-- The target of a program. -/
def target (p : Program) : Node := .targetProgram (p.map Expr.item)

/-- **A program is rewritten to its target.** -/
theorem run_toNode (p : Program) : (Rewriter.run {} p.toNode).1 = .ok p.target := by
  have h := Node.walkFrom_targets p.toNode none [] [] (Expr.allWalkable_toNodes p)
  rw [Rewriter.run, Node.walk, h]
  simp only [toNode, Node.targets, Expr.allTargets_items, target, List.nil_append, List.headD_cons]

end Program

/-! ## The rendering -/

namespace Expr

mutual

/-- The text of an expression that is an argument. -/
def rendering : Expr → Text
  | number digits => digits
  | string value => '"' :: value ++ ['"']
  | call name args => name ++ '(' :: List.intercalate [',', ' '] (renderings args) ++ [')']

/-- The texts of arguments. -/
def renderings : List Expr → List Text
  | [] => []
  | e :: es => e.rendering :: renderings es

end

/-- The text of an expression at the top level, where a semicolon stands behind a call. -/
def itemRendering : Expr → Text
  | call name args => (call name args).rendering ++ [';']
  | e => e.rendering

theorem renderings_eq_map : ∀ es : List Expr, renderings es = es.map rendering
  | [] => rfl
  | e :: es => by rw [renderings, renderings_eq_map es, List.map_cons]

mutual

theorem render_target : ∀ e : Expr, e.target.renderWith {} = .ok e.rendering
  | number _ => rfl
  | string _ => rfl
  | call name args => by
    rw [target, Node.renderWith, renderAll_listTargets args]
    rfl

theorem renderAll_listTargets : ∀ es : List Expr,
    Node.renderAll {} (listTargets es) = .ok (renderings es)
  | [] => rfl
  | e :: es => by
    rw [listTargets, Node.renderAll, render_target e, renderAll_listTargets es]
    rfl

end

theorem render_item (e : Expr) : e.item.renderWith {} = .ok e.itemRendering := by
  cases e with
  | number _ => rfl
  | string _ => rfl
  | call name args =>
    rw [item, Node.renderWith, render_target]
    rfl

theorem renderAll_items : ∀ es : List Expr,
    Node.renderAll {} (es.map item) = .ok (es.map itemRendering)
  | [] => rfl
  | e :: es => by
    rw [List.map_cons, Node.renderAll, render_item, renderAll_items es]
    rfl

end Expr

namespace Program

/-- The text of a program. -/
def rendering (p : Program) : Text := List.intercalate ['\n'] (p.map Expr.itemRendering)

/-- **The target of a program is rendered as its rendering.** -/
theorem render_target (p : Program) : p.target.render = .ok p.rendering := by
  rw [Node.render, target, Node.renderWith, Expr.renderAll_items]
  rfl

end Program

end CallNotation
