import CallNotation.Proofs.Node.Rewriting
import Mathlib.Data.List.Forall2

/-!
# What the rewriting makes of a tree

The target of a tree is made of the six forms of the language to render, and of these in no other
way than `Proper` admits: a callee is an identifier, and a statement is that of a call. So it can be
rendered. It has the calls and literals of the tree, in the order of the tree, however programs
stand in it. In a whole program statements are the targets of just the calls at the top level.

Results:
* `Node.proper_targets`, `Node.marks_targets`: both, by recursion on the tree.
* `Node.exists_renderWith`: a tree of the language to render has a rendering.
* **`Rewriter.run_conserves`**: what can be said of the target of any tree that is rewritten.
-/

namespace CallNotation

namespace Node

/-! ## The parts of a target -/

mutual

/-- The node and all below it in preorder. Nothing is below a node that is not of the language to
render. -/
def parts : Node → List Node
  | targetProgram body => targetProgram body :: allParts body
  | statement expression => statement expression :: expression.parts
  | targetCall callee arguments =>
    targetCall callee arguments :: (callee.parts ++ allParts arguments)
  | node => [node]

/-- The parts of nodes in a row. -/
def allParts : List Node → List Node
  | [] => []
  | n :: ns => n.parts ++ allParts ns

end

theorem allParts_append (ns ms : List Node) : allParts (ns ++ ms) = allParts ns ++ allParts ms := by
  induction ns with
  | nil => rfl
  | cons n ns ih => rw [List.cons_append, allParts, ih, allParts, List.append_assoc]

theorem allParts_singleton (n : Node) : allParts [n] = n.parts := by
  rw [allParts, allParts, List.append_nil]

/-- The node is of one of the six forms of the language to render. -/
def isTarget : Node → Bool
  | targetProgram _ => true
  | statement _ => true
  | targetCall _ _ => true
  | identifier _ => true
  | targetNumber _ => true
  | targetString _ => true
  | _ => false

/-- **The node has one of the six forms**, a statement that of a call, and a call the callee that it
should have. -/
inductive Proper : Node → Prop
  | program (body : List Node) : Proper (targetProgram body)
  | statement (callee : Node) (arguments : List Node) :
      Proper (statement (targetCall callee arguments))
  | call (name : Text) (arguments : List Node) : Proper (targetCall (identifier name) arguments)
  | identifier (name : Text) : Proper (identifier name)
  | number (value : Text) : Proper (targetNumber value)
  | string (value : Text) : Proper (targetString value)

theorem Proper.isTarget {n : Node} (h : n.Proper) : n.isTarget = true := by
  cases h <;> rfl

/-- What the target of a call is made of besides its arguments. -/
theorem mem_parts_targetOfCall {name : Text} {arguments : List Node} {parent : Option Node}
    {m : Node} (h : m ∈ (Rewriter.targetOfCall name arguments parent).parts) :
    m = statement (targetCall (identifier name) arguments) ∨
      m = targetCall (identifier name) arguments ∨ m = identifier name ∨
        m ∈ allParts arguments := by
  unfold Rewriter.targetOfCall at h
  split at h
  · simpa [parts] using Or.inr h
  · simpa [parts] using h

mutual

theorem proper_targets : ∀ (n : Node) (parent : Option Node),
    ∀ m ∈ allParts (n.targets parent), m.Proper
  | program body, _ => proper_allTargets body (program body)
  | call name params, parent => by
    intro m hm
    rw [targets, allParts_singleton] at hm
    rcases mem_parts_targetOfCall hm with rfl | rfl | rfl | hm
    · exact .statement _ _
    · exact .call _ _
    · exact .identifier _
    · exact proper_allTargets params (call name params) m hm
  | number value, _ => List.forall_mem_singleton.mpr (.number value)
  | string value, _ => List.forall_mem_singleton.mpr (.string value)
  | bare, _ => List.forall_mem_nil _
  | targetProgram _, _ => List.forall_mem_nil _
  | statement _, _ => List.forall_mem_nil _
  | targetCall _ _, _ => List.forall_mem_nil _
  | identifier _, _ => List.forall_mem_nil _
  | targetNumber _, _ => List.forall_mem_nil _
  | targetString _, _ => List.forall_mem_nil _
  | targetBare, _ => List.forall_mem_nil _
  | foreign _, _ => List.forall_mem_nil _

theorem proper_allTargets : ∀ (ns : List Node) (parent : Node),
    ∀ m ∈ allParts (allTargets parent ns), m.Proper
  | [], _ => List.forall_mem_nil _
  | n :: ns, parent => by
    rw [allTargets, allParts_append]
    exact List.forall_mem_append.mpr
      ⟨proper_targets n (some parent), proper_allTargets ns parent⟩

end

/-! ## The rendering of a target -/

mutual

/-- **A tree of the language to render has a rendering**, with any separators. -/
theorem exists_renderWith (s : Separators) : ∀ n : Node, (∀ m ∈ n.parts, m.isTarget = true) →
    ∃ text, n.renderWith s = .ok text
  | targetProgram body, h => by
    rw [parts, List.forall_mem_cons] at h
    obtain ⟨texts, htexts⟩ := exists_renderAll s body h.2
    rw [renderWith, htexts]
    exact ⟨_, rfl⟩
  | statement expression, h => by
    rw [parts, List.forall_mem_cons] at h
    obtain ⟨text, htext⟩ := exists_renderWith s expression h.2
    rw [renderWith, htext]
    exact ⟨_, rfl⟩
  | targetCall callee arguments, h => by
    rw [parts, List.forall_mem_cons, List.forall_mem_append] at h
    obtain ⟨texts, htexts⟩ := exists_renderAll s arguments h.2.2
    obtain ⟨text, htext⟩ := exists_renderWith s callee h.2.1
    rw [renderWith, htexts, htext]
    exact ⟨_, rfl⟩
  | identifier name, _ => ⟨_, rfl⟩
  | targetNumber value, _ => ⟨_, rfl⟩
  | targetString value, _ => ⟨_, rfl⟩
  | program _, h => absurd (h _ List.mem_cons_self) Bool.false_ne_true
  | call _ _, h => absurd (h _ List.mem_cons_self) Bool.false_ne_true
  | number _, h => absurd (h _ List.mem_cons_self) Bool.false_ne_true
  | string _, h => absurd (h _ List.mem_cons_self) Bool.false_ne_true
  | bare, h => absurd (h _ List.mem_cons_self) Bool.false_ne_true
  | targetBare, h => absurd (h _ List.mem_cons_self) Bool.false_ne_true
  | foreign _, h => absurd (h _ List.mem_cons_self) Bool.false_ne_true

theorem exists_renderAll (s : Separators) : ∀ ns : List Node,
    (∀ m ∈ allParts ns, m.isTarget = true) → ∃ texts, renderAll s ns = .ok texts
  | [], _ => ⟨[], rfl⟩
  | n :: ns, h => by
    rw [allParts, List.forall_mem_append] at h
    obtain ⟨text, htext⟩ := exists_renderWith s n h.1
    obtain ⟨texts, htexts⟩ := exists_renderAll s ns h.2
    rw [renderAll, htext, htexts]
    exact ⟨_, rfl⟩

end

/-! ## Calls and literals -/

/-- What a tree says, in either language. -/
inductive Mark where
  /-- A call of a name. -/
  | call (name : Text)
  /-- A number. -/
  | number (value : Text)
  /-- A string. -/
  | string (value : Text)
deriving DecidableEq

/-- What a node says by itself; a program, a statement and an identifier say nothing. -/
def mark? : Node → Option Mark
  | call name _ => some (.call name)
  | number value => some (.number value)
  | string value => some (.string value)
  | targetCall (identifier name) _ => some (.call name)
  | targetNumber value => some (.number value)
  | targetString value => some (.string value)
  | _ => none

theorem marks_targetOfCall (name : Text) (arguments : List Node) (parent : Option Node) :
    (Rewriter.targetOfCall name arguments parent).parts.filterMap mark? =
      .call name :: (allParts arguments).filterMap mark? := by
  unfold Rewriter.targetOfCall
  split <;> rfl

mutual

/-- **The targets say what the tree says**, in its order. -/
theorem marks_targets : ∀ (n : Node) (parent : Option Node), n.Walkable →
    (allParts (n.targets parent)).filterMap mark? = n.preorder.filterMap mark?
  | program body, _, h => marks_allTargets body (program body) h
  | call name params, parent, h => by
    rw [targets, allParts_singleton, marks_targetOfCall, marks_allTargets params _ h]
    rfl
  | number _, _, _ => rfl
  | string _, _, _ => rfl

theorem marks_allTargets : ∀ (ns : List Node) (parent : Node), AllWalkable ns →
    (allParts (allTargets parent ns)).filterMap mark? = (allPreorder ns).filterMap mark?
  | [], _, _ => rfl
  | n :: ns, parent, h => by
    rw [allTargets, allParts_append, List.filterMap_append, marks_targets n _ h.1,
      marks_allTargets ns parent h.2, allPreorder, List.filterMap_append]

end

/-! ## Statements -/

/-- None of the nodes is a program. -/
def NoProgram (ns : List Node) : Prop :=
  ∀ n ∈ ns, ∀ body, n ≠ program body

/-- None of the nodes is a statement. -/
def NoStatement (ns : List Node) : Prop :=
  ∀ n ∈ ns, ∀ expression, n ≠ statement expression

/-- **What an item of a program becomes**: a statement just if it is a call. -/
structure BecomesItem (n item : Node) : Prop where
  statement_iff : (∃ expression, item = statement expression) ↔ ∃ name params, n = call name params
  /-- There are no other statements. -/
  below : NoStatement item.parts.tail

theorem noStatement_call {name : Text} {arguments : List Node}
    (h : NoStatement (allParts arguments)) :
    NoStatement (targetCall (identifier name) arguments).parts :=
  List.forall_mem_cons.mpr ⟨nofun, List.forall_mem_cons.mpr ⟨nofun, h⟩⟩

mutual

theorem noStatement_targets : ∀ (n : Node) (name : Text) (params : List Node),
    NoProgram n.preorder → NoStatement (allParts (n.targets (some (call name params))))
  | program body, _, _, h => absurd rfl (h _ List.mem_cons_self body)
  | call name' params', name, params, h => by
    have hparams := noStatement_allTargets params' name' params'
      fun n hn => h n (List.mem_cons_of_mem _ hn)
    rw [targets, allParts_singleton]
    exact noStatement_call hparams
  | number _, _, _, _ => List.forall_mem_singleton.mpr nofun
  | string _, _, _, _ => List.forall_mem_singleton.mpr nofun
  | bare, _, _, _ => List.forall_mem_nil _
  | targetProgram _, _, _, _ => List.forall_mem_nil _
  | statement _, _, _, _ => List.forall_mem_nil _
  | targetCall _ _, _, _, _ => List.forall_mem_nil _
  | identifier _, _, _, _ => List.forall_mem_nil _
  | targetNumber _, _, _, _ => List.forall_mem_nil _
  | targetString _, _, _, _ => List.forall_mem_nil _
  | targetBare, _, _, _ => List.forall_mem_nil _
  | foreign _, _, _, _ => List.forall_mem_nil _

theorem noStatement_allTargets : ∀ (ns : List Node) (name : Text) (params : List Node),
    NoProgram (allPreorder ns) → NoStatement (allParts (allTargets (call name params) ns))
  | [], _, _, _ => List.forall_mem_nil _
  | n :: ns, name, params, h => by
    obtain ⟨hn, hns⟩ := List.forall_mem_append.mp h
    rw [allTargets, allParts_append]
    exact List.forall_mem_append.mpr
      ⟨noStatement_targets n name params hn, noStatement_allTargets ns name params hns⟩

end

/-- An item that holds no program becomes one item. -/
theorem exists_becomesItem {n : Node} (hwalk : n.Walkable) (h : NoProgram n.preorder)
    (body : List Node) : ∃ item, n.targets (some (program body)) = [item] ∧ BecomesItem n item := by
  cases n with
  | program inner => exact absurd rfl (h _ List.mem_cons_self inner)
  | call name params =>
    -- its arguments stand within a call, so just the call itself becomes a statement
    have hparams := noStatement_allTargets params name params
      fun n hn => h n (List.mem_cons_of_mem _ hn)
    exact ⟨_, rfl, ⟨fun _ => ⟨name, params, rfl⟩, fun _ => ⟨_, rfl⟩⟩, noStatement_call hparams⟩
  | number value => exact ⟨_, rfl, ⟨nofun, nofun⟩, List.forall_mem_nil _⟩
  | string value => exact ⟨_, rfl, ⟨nofun, nofun⟩, List.forall_mem_nil _⟩
  | _ => exact hwalk.elim

/-- The items of a program become the items of its target, one by one. -/
theorem forall₂_allTargets (body : List Node) : ∀ ns : List Node, AllWalkable ns →
    NoProgram (allPreorder ns) → List.Forall₂ BecomesItem ns (allTargets (program body) ns)
  | [], _, _ => .nil
  | n :: ns, hwalk, h => by
    obtain ⟨hn, hns⟩ := List.forall_mem_append.mp h
    obtain ⟨item, htargets, hitem⟩ := exists_becomesItem hwalk.1 hn body
    rw [allTargets, htargets]
    exact .cons hitem (forall₂_allTargets body ns hwalk.2 hns)

end Node

open Node

/-- **What the target of a tree keeps.** If a tree is rewritten, then its target is made of the six
forms of the language to render, each as it should be, so it has a rendering with any separators;
and its calls and literals are those of the tree, in the same order. If the tree is a program that
holds no other, each of its items becomes one item of the target, and this is a statement just if it
was a call; there are no statements below. -/
theorem Rewriter.run_conserves {r : Rewriter} {t target : Node} (h : (r.run t).1 = .ok target) :
    (∀ m ∈ target.parts, m.Proper) ∧
    (∀ s : Separators, ∃ text, target.renderWith s = .ok text) ∧
    target.parts.filterMap mark? = t.preorder.filterMap mark? ∧
    ∀ body, t = .program body → NoProgram (allPreorder body) →
      ∃ items, target = .targetProgram items ∧ List.Forall₂ BecomesItem body items := by
  -- only a tree that is walked to its end is rewritten
  have hnone : t.refused? = none := by
    rw [run_eq] at h
    cases hrefused : t.refused? with
    | none => rfl
    | some n => rw [hrefused] at h; cases h
  have hwalk := t.walkable_iff.mpr hnone
  obtain rfl : .targetProgram (t.targets none) = target := by
    rw [run_eq, hnone] at h
    exact Except.ok.inj h
  have hproper : ∀ m ∈ (targetProgram (t.targets none)).parts, m.Proper :=
    List.forall_mem_cons.mpr ⟨.program _, proper_targets t none⟩
  refine ⟨hproper, fun s => exists_renderWith s _ fun m hm => (hproper m hm).isTarget,
    marks_targets t none hwalk, ?_⟩
  rintro body rfl hprogram
  exact ⟨_, rfl, forall₂_allTargets body body hwalk hprogram⟩

/-- A program within a call leaves a statement among the arguments, which is rendered and counted
all the same; and a string and a call become an item each. -/
theorem Rewriter.run_conserves_nested :
    (∃ target, (run {} (.call ['f'] [.program [.call ['g'] []], .number ['1']])).1 = .ok target ∧
      (∃ text, target.renderWith {} = .ok text) ∧
      target.parts.filterMap mark? = [.call ['f'], .call ['g'], .number ['1']]) ∧
    ∃ items,
      (run {} (.program [.string [';'], .call ['f'] [.call ['g'] []]])).1 =
        .ok (.targetProgram items) ∧
      List.Forall₂ BecomesItem [.string [';'], .call ['f'] [.call ['g'] []]] items := by
  constructor
  · obtain ⟨-, hrender, hmarks, -⟩ := run_conserves
      (r := {}) (t := .call ['f'] [.program [.call ['g'] []], .number ['1']]) rfl
    exact ⟨_, rfl, hrender {}, hmarks⟩
  · obtain ⟨-, -, -, hitems⟩ := run_conserves
      (r := {}) (t := .program [.string [';'], .call ['f'] [.call ['g'] []]]) rfl
    obtain ⟨items, htarget, hitems⟩ := hitems _ rfl (by simp [NoProgram, allPreorder, preorder])
    exact ⟨items, congrArg Except.ok htarget, hitems⟩

end CallNotation
