import CallNotation.Proofs.Node.Visits
import CallNotation.Proofs.Node.Target
import Mathlib.Data.List.Basic

/-!
# The stack of collections and the rewriting by recursion

`Rewriter.run` builds the target of a tree by what it does to a stack of collections while a walk
goes by. What comes of it is `Node.targets`, a recursion on the tree that follows `TargetRules`,
also where programs stand within programs or calls. Between two steps of the walk the stack has one
collection for each call that is open and one for the target program, so no step lacks a collection
that it puts a node into or closes; this is so on the way to a node that stops the walk, too.

Results:
* `Node.targetRules_targets`: the rules of the rewriting by recursion.
* `Visitor.walk_state_of_guarded`: a guard that lets every step pass changes nothing.
* `Rewriter.walk_guarded`: no step of a walk lacks a collection.
* **`Rewriter.run_rewrites`**: what the rewriting of any tree comes to, whatever the rewriter was
  used for before.
-/

namespace CallNotation

namespace Node

/-! ## Rules -/

/-- **The rules of rewriting a program node** that stands within a parent, if there is one. -/
structure TargetRules (T : Option Node → Node → List Node) : Prop where
  /-- A number becomes a number. -/
  number (parent : Option Node) (value : Text) : T parent (number value) = [targetNumber value]
  /-- A string becomes a string. -/
  string (parent : Option Node) (value : Text) : T parent (string value) = [targetString value]
  /-- A call within a call becomes an argument. -/
  argument (name name' : Text) (params params' : List Node) :
    T (some (call name' params')) (call name params) =
      [targetCall (identifier name) (params.flatMap (T (some (call name params))))]
  /-- Any other call becomes a statement. -/
  statement (parent : Option Node) (name : Text) (params : List Node)
    (h : ∀ name' params', parent ≠ some (call name' params')) :
    T parent (call name params) =
      [statement (targetCall (identifier name) (params.flatMap (T (some (call name params)))))]
  /-- A program becomes what its items become. -/
  program (parent : Option Node) (body : List Node) :
    T parent (program body) = body.flatMap (T (some (program body)))

theorem allTargets_eq_flatMap (parent : Node) (ns : List Node) :
    allTargets parent ns = ns.flatMap (targets (some parent)) := by
  induction ns with
  | nil => rfl
  | cons n ns ih => rw [allTargets, ih, List.flatMap_cons]

theorem targetRules_targets : TargetRules targets where
  number _ _ := rfl
  string _ _ := rfl
  argument name name' params params' := by
    rw [targets, allTargets_eq_flatMap]
    rfl
  statement parent name params h := by
    rw [targets, allTargets_eq_flatMap, Rewriter.targetOfCall]
    exact h
  program parent body := by rw [targets, allTargets_eq_flatMap]

/-! ## Trees that are walked to their end -/

mutual

theorem walkable_iff : ∀ n : Node, n.Walkable ↔ n.refused? = none
  | program body => by
    rw [Walkable, allWalkable_iff body, refused?, preorder, firstRefused?_cons rfl]
  | call name params => by
    rw [Walkable, allWalkable_iff params, refused?, preorder, firstRefused?_cons rfl]
  | number _ => ⟨fun _ => rfl, fun _ => trivial⟩
  | string _ => ⟨fun _ => rfl, fun _ => trivial⟩
  | bare => ⟨False.elim, nofun⟩
  | targetProgram _ => ⟨False.elim, nofun⟩
  | statement _ => ⟨False.elim, nofun⟩
  | targetCall _ _ => ⟨False.elim, nofun⟩
  | identifier _ => ⟨False.elim, nofun⟩
  | targetNumber _ => ⟨False.elim, nofun⟩
  | targetString _ => ⟨False.elim, nofun⟩
  | targetBare => ⟨False.elim, nofun⟩
  | foreign _ => ⟨False.elim, nofun⟩

theorem allWalkable_iff : ∀ ns : List Node, AllWalkable ns ↔ firstRefused? (allPreorder ns) = none
  | [] => ⟨fun _ => rfl, fun _ => trivial⟩
  | n :: ns => by
    rw [AllWalkable, walkable_iff n, allWalkable_iff ns, allPreorder, firstRefused?_append,
      Option.or_eq_none_iff, refused?]

end

/-- A walk that nothing stops adds the targets to the innermost collection. -/
theorem walkFrom_of_none {n : Node} {parent : Option Node} {c : List Node} {cs : List (List Node)}
    (h : (walkFrom Rewriter.visitor parent n ⟨c :: cs⟩).fault? = none) :
    walkFrom Rewriter.visitor parent n ⟨c :: cs⟩ = ⟨⟨(c ++ n.targets parent) :: cs⟩, none⟩ := by
  rw [walkFrom_fault?, Option.map_eq_none_iff] at h
  exact walkFrom_targets n parent c cs (n.walkable_iff.mpr h)

theorem walkAll_of_none {ns : List Node} {parent : Node} {c : List Node} {cs : List (List Node)}
    (h : (walkAll Rewriter.visitor parent ns ⟨c :: cs⟩).fault? = none) :
    walkAll Rewriter.visitor parent ns ⟨c :: cs⟩ =
      ⟨⟨(c ++ allTargets parent ns) :: cs⟩, none⟩ := by
  rw [walkAll_fault?, Option.map_eq_none_iff] at h
  exact walkAll_targets ns parent c cs ((allWalkable_iff ns).mpr h)

end Node

/-! ## No step lacks a collection -/

/-- The visitor that fails at a step for which it is not ready. -/
def Visitor.guarded {σ : Type} (ready : String → Phase → σ → Bool) (v : Visitor σ) :
    Visitor (Option σ) := fun kind =>
  let guard (phase : Phase) (callback : Callback σ) : Callback (Option σ) := fun node parent s =>
    s.bind fun s => if ready kind phase s then some (callback node parent s) else none
  { enter := (v kind).enter.map (guard .enter), exit := (v kind).exit.map (guard .exit) }

namespace Visitor

variable {σ : Type} {v : Visitor σ} {ready : String → Phase → σ → Bool}

theorem guarded_react_none (x : Visit) : (v.guarded ready).react none x = none := by
  obtain ⟨phase, node, parent⟩ := x
  cases phase with
  | enter => cases h : (v node.kind).enter <;> simp [react, enter, guarded, h]
  | exit => cases h : (v node.kind).exit <;> simp [react, exit, guarded, h]

theorem guarded_react_some {x : Visit} {s s' : σ}
    (h : (v.guarded ready).react (some s) x = some s') : v.react s x = s' := by
  obtain ⟨phase, node, parent⟩ := x
  cases phase with
  | enter =>
    cases hc : (v node.kind).enter with
    | none => simpa [react, enter, guarded, hc] using h
    | some callback =>
      simp only [react, enter, guarded, hc, Option.map_some, Option.bind_some] at h ⊢
      exact Option.some.inj (Option.ite_none_right_eq_some.mp h).2
  | exit =>
    cases hc : (v node.kind).exit with
    | none => simpa [react, exit, guarded, hc] using h
    | some callback =>
      simp only [react, exit, guarded, hc, Option.map_some, Option.bind_some] at h ⊢
      exact Option.some.inj (Option.ite_none_right_eq_some.mp h).2

theorem foldl_guarded_react {xs : List Visit} {s s' : σ}
    (h : xs.foldl (v.guarded ready).react (some s) = some s') : xs.foldl v.react s = s' := by
  induction xs generalizing s with
  | nil => exact Option.some.inj h
  | cons x xs ih =>
    rw [List.foldl_cons] at h
    cases hx : (v.guarded ready).react (some s) x with
    | none =>
      -- a step that has failed is not made up for
      have hnone : xs.foldl (v.guarded ready).react none = none :=
        List.foldl_fixed' guarded_react_none xs
      rw [hx, hnone] at h
      cases h
    | some s₁ =>
      rw [hx] at h
      rw [List.foldl_cons, guarded_react_some hx]
      exact ih h

/-- **A walk in which no step fails** comes to the same without the guard. -/
theorem walk_state_of_guarded {root : Node} {s s' : σ}
    (h : (root.walk (v.guarded ready) (some s)).state = some s') : (root.walk v s).state = s' := by
  rw [Node.walk_state, foldl_react_filter] at h ⊢
  exact foldl_guarded_react h

end Visitor

/-- The same walk, in which no step has failed. -/
def Walk.unfailed {σ : Type} (w : Walk σ) : Walk (Option σ) :=
  ⟨some w.state, w.fault?⟩

namespace Rewriter

/-- The collections are open that a step needs: one to put a node into, and to leave a call its own
besides. -/
def ready (kind : String) (phase : Phase) (r : Rewriter) : Bool :=
  match kind, phase with
  | "CallExpression", .exit => 2 ≤ r.collections.length
  | _, _ => 1 ≤ r.collections.length

/-- The rewriting visitor that fails where a collection is lacking. -/
def guardedVisitor : Visitor (Option Rewriter) :=
  visitor.guarded ready

open Node

theorem leave_unfailed {node : Node} {parent : Option Node} {w : Walk Rewriter}
    (h : w.fault? = none →
      guardedVisitor.exit node parent (some w.state) = some (visitor.exit node parent w.state)) :
    guardedVisitor.leave node parent w.unfailed = (visitor.leave node parent w).unfailed := by
  obtain ⟨r, fault?⟩ := w
  cases fault? with
  | none => exact congrArg (Walk.mk · none) (h rfl)
  | some f => rfl

mutual

theorem walkFrom_guarded : ∀ (n : Node) (parent : Option Node) (c : List Node)
    (cs : List (List Node)),
    walkFrom guardedVisitor parent n (some ⟨c :: cs⟩) =
      (walkFrom visitor parent n ⟨c :: cs⟩).unfailed
  | .program body, parent, c, cs => by
    have henter : guardedVisitor.enter (.program body) parent (some ⟨c :: cs⟩) =
        some (visitor.enter (.program body) parent ⟨c :: cs⟩) := rfl
    have hbody := walkAll_guarded body (.program body) c cs
    rw [walkFrom, walkFrom, henter]
    exact (congrArg _ hbody).trans (leave_unfailed fun _ => rfl)
  | .call name params, parent, c, cs => by
    have henter : guardedVisitor.enter (.call name params) parent (some ⟨c :: cs⟩) =
        some (visitor.enter (.call name params) parent ⟨c :: cs⟩) := rfl
    have hparams := walkAll_guarded params (.call name params) [] (c :: cs)
    rw [walkFrom, walkFrom, henter]
    refine (congrArg _ hparams).trans (leave_unfailed fun hnone => ?_)
    -- a call that is left has its own collection on top of the one around it
    rw [walkAll_of_none hnone]
    rfl
  | .number _, _, _, _ => rfl
  | .string _, _, _, _ => rfl
  | .bare, _, _, _ => rfl
  | .targetProgram _, _, _, _ => rfl
  | .statement _, _, _, _ => rfl
  | .targetCall _ _, _, _, _ => rfl
  | .identifier _, _, _, _ => rfl
  | .targetNumber _, _, _, _ => rfl
  | .targetString _, _, _, _ => rfl
  | .targetBare, _, _, _ => rfl
  | .foreign _, _, _, _ => rfl

theorem walkAll_guarded : ∀ (ns : List Node) (parent : Node) (c : List Node)
    (cs : List (List Node)),
    walkAll guardedVisitor parent ns (some ⟨c :: cs⟩) =
      (walkAll visitor parent ns ⟨c :: cs⟩).unfailed
  | [], _, _, _ => rfl
  | n :: ns, parent, c, cs => by
    have hn := walkFrom_guarded n (some parent) c cs
    cases hfault : (walkFrom visitor (some parent) n ⟨c :: cs⟩).fault? with
    | none =>
      have hstate := congrArg Walk.state (walkFrom_of_none hfault)
      have hguarded : (walkFrom guardedVisitor (some parent) n (some ⟨c :: cs⟩)).fault? = none := by
        rw [hn]
        exact hfault
      rw [walkAll_cons_of_none _ hfault, walkAll_cons_of_none _ hguarded, hn, Walk.unfailed,
        hstate]
      exact walkAll_guarded ns parent _ cs
    | some f =>
      have hguarded : (walkFrom guardedVisitor (some parent) n (some ⟨c :: cs⟩)).fault? =
          some f := by
        rw [hn]
        exact hfault
      rw [walkAll_cons_of_some _ hfault, walkAll_cons_of_some _ hguarded, hn]

end

/-- **No step of a walk lacks a collection**, whether or not something stops the walk. -/
theorem walk_guarded (root : Node) :
    root.walk guardedVisitor (some ⟨[[]]⟩) = (root.walk visitor ⟨[[]]⟩).unfailed :=
  walkFrom_guarded root none [] []

/-- What the rewriting of a tree comes to, by the first node that is of none of the four forms. -/
theorem run_eq (r : Rewriter) (t : Node) :
    r.run t = (match t.refused? with
      | none => .ok (.targetProgram (t.targets none))
      | some n => .error (.unwalkable n.kind), {}) := by
  have hfault := walk_fault? visitor t (⟨[[]]⟩ : Rewriter)
  cases hrefused : t.refused? with
  | none =>
    have hwalk := walkFrom_targets t none [] [] (t.walkable_iff.mpr hrefused)
    rw [run, walk, hwalk]
    rfl
  | some n =>
    rw [hrefused] at hfault
    unfold run
    split
    · rename_i hw
      rw [hw] at hfault
      cases hfault
    · rename_i hw
      rw [hw] at hfault
      cases hfault
      rfl

/-- **What the rewriting of a tree comes to**, whatever the rewriter was used for before. If the
tree holds a node that is of none of the four forms, the first such node in preorder is the fault;
otherwise the result is a target program of the targets of the tree, which are told by the rules. In
either case no collection is left open, and none was lacking at any step. The rewriting of a whole
program comes to the same, but that it refuses a root without a body. -/
theorem run_rewrites (r : Rewriter) (t : Node) :
    TargetRules targets ∧
    (r.run t).1 = (match t.refused? with
      | none => .ok (.targetProgram (t.targets none))
      | some n => .error (.unwalkable n.kind)) ∧
    (r.run t).2.collections = [] ∧
    (t.walk guardedVisitor (some ⟨[[]]⟩)).state ≠ none ∧
    t.transform = (match t.refused?, t with
      | some n, _ => .error (.fault (.unwalkable n.kind))
      | none, .program _ => .ok (.targetProgram (t.targets none))
      | none, _ => .error (.noBody t.kind)) := by
  refine ⟨targetRules_targets, congrArg Prod.fst (r.run_eq t), ?_, ?_, ?_⟩
  · rw [run_eq]
  · rw [walk_guarded]
    exact Option.some_ne_none _
  · unfold Node.transform
    rw [run_eq]
    cases t.refused? with
    | some n => rfl
    | none => cases t <;> rfl

end Rewriter

end CallNotation
