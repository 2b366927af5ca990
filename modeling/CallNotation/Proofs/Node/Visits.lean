import CallNotation.Proofs.Node.Preorder

/-!
# The visits of a walk

`Node.course` is a depth-first walk by recursion on the tree and without a visitor: a node is
visited, then come the courses of its children in order, then it is visited again. A node that is
of none of the four forms is refused where it stands, and the course goes on. `Node.visits` are the
visits in front of the first refusal. A walk goes through them, and calls those of the visitor's
callbacks that there are.

Results:
* `Node.walkFrom_eq_run`: a walk goes through the course up to the first refusal.
* **`Node.walk_fault?`**: the fault of a walk, of any tree and with any visitor.
* **`Node.walk_visits`**: what any visitor's walk of any tree comes to.
-/

namespace CallNotation

/-- A visit of a node that stands within a parent, if there is one. -/
structure Visit where
  /-- Before or after the nodes below it. -/
  phase : Phase
  /-- The node. -/
  node : Node
  /-- The node around it. -/
  parent : Option Node

/-- The visit as a recording shows it. -/
def Visit.event (x : Visit) : Event :=
  .ofNode x.phase x.node x.parent

/-- A step on the way through a tree. -/
inductive Step where
  /-- A node is visited. -/
  | visit (x : Visit)
  /-- A node is refused. -/
  | refusal (node : Node)

namespace Step

/-- The visits in front of the first refusal. -/
def visits : List Step → List Visit
  | visit x :: steps => x :: visits steps
  | _ => []

/-- The node that is refused first. -/
def refused? : List Step → Option Node
  | [] => none
  | visit _ :: steps => refused? steps
  | refusal n :: _ => some n

/-- The steps in front of the first refusal are visits, and those that are left begin with it. -/
theorem exists_rest (steps : List Step) :
    ∃ rest, steps = (visits steps).map visit ++ rest ∧
      rest.head? = (refused? steps).map refusal := by
  induction steps with
  | nil => exact ⟨[], rfl, rfl⟩
  | cons step steps ih =>
    cases step with
    | visit x =>
      obtain ⟨rest, hsteps, hrest⟩ := ih
      exact ⟨rest, congrArg _ hsteps, hrest⟩
    | refusal n => exact ⟨refusal n :: steps, rfl, rfl⟩

theorem refused?_append (as bs : List Step) :
    refused? (as ++ bs) = (refused? as).or (refused? bs) := by
  induction as with
  | nil => rfl
  | cons step as ih =>
    cases step with
    | visit x => exact ih
    | refusal n => rfl

/-- The visits of steps behind which nothing is refused. -/
theorem visits_append {as : List Step} (h : refused? as = none) (bs : List Step) :
    visits (as ++ bs) = visits as ++ visits bs := by
  induction as with
  | nil => rfl
  | cons step as ih =>
    cases step with
    | visit x => exact congrArg (x :: ·) (ih h)
    | refusal n => cases h

end Step

namespace Node

open Step (visit refusal)

/-! ## The course -/

/-- The steps `inner` between the two visits of a node. -/
def around (node : Node) (parent : Option Node) (inner : List Step) : List Step :=
  visit ⟨.enter, node, parent⟩ :: (inner ++ [visit ⟨.exit, node, parent⟩])

mutual

/-- The course of a depth-first walk of a tree that stands within `parent`. -/
def course (parent : Option Node) : Node → List Step
  | program body => around (program body) parent (courses (program body) body)
  | call name params => around (call name params) parent (courses (call name params) params)
  | number value => around (number value) parent []
  | string value => around (string value) parent []
  | node => [refusal node]

/-- The courses of the children of `parent`, one after the other. -/
def courses (parent : Node) : List Node → List Step
  | [] => []
  | n :: ns => course (some parent) n ++ courses parent ns

end

/-- The visits of a tree in front of the first node that is refused. -/
def visits (root : Node) : List Visit :=
  Step.visits (root.course none)

theorem refused?_around (node : Node) (parent : Option Node) (inner : List Step) :
    Step.refused? (around node parent inner) = Step.refused? inner := by
  rw [around, Step.refused?, Step.refused?_append]
  exact Option.or_none

mutual

/-- The node that a course refuses first is the first one in preorder that is of none of the four
forms. -/
theorem refused?_course : ∀ (n : Node) (parent : Option Node),
    Step.refused? (n.course parent) = n.refused?
  | program body, parent => by
    rw [course, refused?_around, refused?_courses body, refused?, preorder, firstRefused?_cons rfl]
  | call name params, parent => by
    rw [course, refused?_around, refused?_courses params, refused?, preorder,
      firstRefused?_cons rfl]
  | number _, _ => rfl
  | string _, _ => rfl
  | bare, _ => rfl
  | targetProgram _, _ => rfl
  | statement _, _ => rfl
  | targetCall _ _, _ => rfl
  | identifier _, _ => rfl
  | targetNumber _, _ => rfl
  | targetString _, _ => rfl
  | targetBare, _ => rfl
  | foreign _, _ => rfl

theorem refused?_courses : ∀ (ns : List Node) (parent : Node),
    Step.refused? (courses parent ns) = firstRefused? (allPreorder ns)
  | [], _ => rfl
  | n :: ns, parent => by
    rw [courses, Step.refused?_append, refused?_course n, refused?_courses ns, allPreorder,
      firstRefused?_append, refused?]

end

end Node

/-! ## Visitors -/

namespace Visitor

variable {σ : Type} (v : Visitor σ)

/-- The visitor has a callback for the visit. -/
def listens (x : Visit) : Bool :=
  match x.phase with
  | .enter => (v x.node.kind).enter.isSome
  | .exit => (v x.node.kind).exit.isSome

/-- Calls the callback for a visit, if there is one. -/
def react (s : σ) (x : Visit) : σ :=
  match x.phase with
  | .enter => v.enter x.node x.parent s
  | .exit => v.exit x.node x.parent s

theorem react_of_not_listens {x : Visit} (h : v.listens x = false) (s : σ) : v.react s x = s := by
  obtain ⟨phase, node, parent⟩ := x
  cases phase with
  | enter =>
    have hnone : (v node.kind).enter = none := by simpa [listens] using h
    rw [react, enter, hnone]
  | exit =>
    have hnone : (v node.kind).exit = none := by simpa [listens] using h
    rw [react, exit, hnone]

/-- Visits without a callback change nothing. -/
theorem foldl_react_filter (xs : List Visit) (s : σ) :
    (xs.filter v.listens).foldl v.react s = xs.foldl v.react s := by
  induction xs generalizing s with
  | nil => rfl
  | cons x xs ih =>
    cases h : v.listens x with
    | true => rw [List.filter_cons_of_pos h, List.foldl_cons, List.foldl_cons, ih]
    | false =>
      rw [List.filter_cons_of_neg (by simp [h]), List.foldl_cons, v.react_of_not_listens h, ih]

/-- Goes through the steps up to the first refusal. -/
def run : List Step → σ → Walk σ
  | [], s => ⟨s, none⟩
  | .visit x :: steps, s => run steps (v.react s x)
  | .refusal n :: _, s => ⟨s, some (.unwalkable n.kind)⟩

theorem run_eq (steps : List Step) (s : σ) :
    v.run steps s =
      ⟨(Step.visits steps).foldl v.react s,
        (Step.refused? steps).map fun n => .unwalkable n.kind⟩ := by
  induction steps generalizing s with
  | nil => rfl
  | cons step steps ih =>
    cases step with
    | visit x => exact ih _
    | refusal n => rfl

/-- Steps without a refusal are gone through to their end. -/
theorem run_append_of_none {as : List Step} {s : σ} (h : (v.run as s).fault? = none)
    (bs : List Step) : v.run (as ++ bs) s = v.run bs (v.run as s).state := by
  induction as generalizing s with
  | nil => rfl
  | cons step as ih =>
    cases step with
    | visit x => exact ih h
    | refusal n => cases h

/-- What is behind a refusal does not matter. -/
theorem run_append_of_some {as : List Step} {s : σ} {f : Fault}
    (h : (v.run as s).fault? = some f) (bs : List Step) : v.run (as ++ bs) s = v.run as s := by
  induction as generalizing s with
  | nil => cases h
  | cons step as ih =>
    cases step with
    | visit x => exact ih h
    | refusal n => rfl

/-- To enter a node, go through the steps inside and leave it is to go through the steps around
it. -/
theorem run_around (node : Node) (parent : Option Node) (inner : List Step) (s : σ) :
    v.run (node.around parent inner) s =
      v.leave node parent (v.run inner (v.enter node parent s)) := by
  have hfirst : v.run (node.around parent inner) s =
      v.run (inner ++ [.visit ⟨.exit, node, parent⟩]) (v.enter node parent s) := rfl
  rw [hfirst]
  -- the visit behind the inner steps is left out by both if these have a fault
  cases h : (v.run inner (v.enter node parent s)).fault? with
  | none =>
    rw [v.run_append_of_none h, leave, h]
    rfl
  | some f => rw [v.run_append_of_some h, leave, h]

end Visitor

namespace Node

variable {σ : Type} (v : Visitor σ)

/-- Behind a tree that is walked to its end, the walk goes on with the next. -/
theorem walkAll_cons_of_none {n : Node} {ns : List Node} {parent : Node} {s : σ}
    (h : (walkFrom v (some parent) n s).fault? = none) :
    walkAll v parent (n :: ns) s = walkAll v parent ns (walkFrom v (some parent) n s).state := by
  rw [walkAll]
  split
  · rename_i hw
    rw [hw]
  · rename_i hw
    exact absurd h fun h => hw _ (congrArg (Walk.mk _) h)

/-- A tree that stops the walk is the last. -/
theorem walkAll_cons_of_some {n : Node} {ns : List Node} {parent : Node} {s : σ} {f : Fault}
    (h : (walkFrom v (some parent) n s).fault? = some f) :
    walkAll v parent (n :: ns) s = walkFrom v (some parent) n s := by
  rw [walkAll]
  split
  · rename_i hw
    rw [hw] at h
    cases h
  · rfl

mutual

/-- **A walk goes through the course** up to the first refusal. -/
theorem walkFrom_eq_run : ∀ (n : Node) (parent : Option Node) (s : σ),
    walkFrom v parent n s = v.run (n.course parent) s
  | program body, parent, s => by
    rw [walkFrom, course, v.run_around, walkAll_eq_run body]
  | call name params, parent, s => by
    rw [walkFrom, course, v.run_around, walkAll_eq_run params]
  | number _, _, _ => by rw [walkFrom, course, v.run_around, Visitor.run]
  | string _, _, _ => by rw [walkFrom, course, v.run_around, Visitor.run]
  | bare, _, _ => rfl
  | targetProgram _, _, _ => rfl
  | statement _, _, _ => rfl
  | targetCall _ _, _, _ => rfl
  | identifier _, _, _ => rfl
  | targetNumber _, _, _ => rfl
  | targetString _, _, _ => rfl
  | targetBare, _, _ => rfl
  | foreign _, _, _ => rfl

theorem walkAll_eq_run : ∀ (ns : List Node) (parent : Node) (s : σ),
    walkAll v parent ns s = v.run (courses parent ns) s
  | [], _, _ => rfl
  | n :: ns, parent, s => by
    have hn := walkFrom_eq_run n (some parent) s
    -- a fault in the first tree ends both, and without one both go on from the same state
    cases h : (walkFrom v (some parent) n s).fault? with
    | none =>
      rw [walkAll_cons_of_none v h, walkAll_eq_run ns, courses, hn,
        v.run_append_of_none (hn ▸ h)]
    | some f => rw [walkAll_cons_of_some v h, courses, hn, v.run_append_of_some (hn ▸ h)]

end

theorem walkFrom_fault? (n : Node) (parent : Option Node) (s : σ) :
    (walkFrom v parent n s).fault? = n.refused?.map fun m => .unwalkable m.kind := by
  rw [walkFrom_eq_run, v.run_eq, refused?_course]

theorem walkAll_fault? (ns : List Node) (parent : Node) (s : σ) :
    (walkAll v parent ns s).fault? =
      (firstRefused? (allPreorder ns)).map fun m => .unwalkable m.kind := by
  rw [walkAll_eq_run, v.run_eq, refused?_courses]

/-- **The fault of a walk** is that of the first node in preorder that is of none of the four
forms. -/
theorem walk_fault? (n : Node) (s : σ) :
    (n.walk v s).fault? = n.refused?.map fun m => .unwalkable m.kind :=
  walkFrom_fault? v n none s

/-- The state after a walk is that after calling the callbacks there are, visit by visit. -/
theorem walk_state (root : Node) (s : σ) :
    (root.walk v s).state = (root.visits.filter v.listens).foldl v.react s := by
  rw [walk, walkFrom_eq_run, v.run_eq, v.foldl_react_filter]
  rfl

theorem react_recorder (listening : String → Phase → Bool) (es : List Event) (x : Visit) :
    (Visitor.recorder listening).react es x =
      if listening x.node.kind x.phase then es ++ [x.event] else es := by
  obtain ⟨phase, node, parent⟩ := x
  cases phase with
  | enter => cases h : listening node.kind .enter <;>
      simp [Visitor.react, Visitor.enter, Visitor.recorder, Visit.event, h]
  | exit => cases h : listening node.kind .exit <;>
      simp [Visitor.react, Visitor.exit, Visitor.recorder, Visit.event, h]

/-- A recording holds the visits that are listened to. -/
theorem record_state (listening : String → Phase → Bool) (root : Node) :
    (root.record listening).state =
      (root.visits.filter fun x => listening x.node.kind x.phase).map Visit.event := by
  have hfold : ∀ (xs : List Visit) (es : List Event),
      xs.foldl (Visitor.recorder listening).react es =
        es ++ (xs.filter fun x => listening x.node.kind x.phase).map Visit.event := by
    intro xs
    induction xs with
    | nil => simp
    | cons x xs ih =>
      intro es
      rw [List.foldl_cons, ih, react_recorder]
      cases h : listening x.node.kind x.phase <;> simp [h]
  rw [record, walk_state, Visitor.foldl_react_filter, hfold, List.nil_append]

/-- **What a walk comes to**, of any tree and with any visitor. The callbacks that there are for the
visits of the tree are called in order, and no others. The visits are those of the course up to the
first node in preorder that is of none of the four forms. This node is the fault, whatever the
visitor is, and there is a fault just if such a node is reached. Nodes of the language to render are
refused, also where a form of program nodes has the same kind. -/
theorem walk_visits (root : Node) (s : σ) :
    (root.walk v s).state = (root.visits.filter v.listens).foldl v.react s ∧
    (∀ listening, (root.record listening).state =
      (root.visits.filter fun x => listening x.node.kind x.phase).map Visit.event) ∧
    (∃ rest, root.course none = root.visits.map .visit ++ rest ∧
      rest.head? = root.refused?.map .refusal) ∧
    (root.walk v s).fault? = root.refused?.map (fun n => .unwalkable n.kind) ∧
    ((root.walk v s).fault? ≠ none ↔ ∃ n, Reaches root n ∧ n.isWalked = false) ∧
    (∀ body, (targetProgram body).walk v s = ⟨s, some (.unwalkable (program body).kind)⟩) ∧
    ∀ callee arguments name, (targetCall callee arguments).walk v s =
      ⟨s, some (.unwalkable (call name arguments).kind)⟩ := by
  refine ⟨walk_state v root s, fun listening => record_state listening root, ?_,
    walk_fault? v root s, ?_, fun body => rfl, fun callee arguments name => rfl⟩
  · have h := Step.exists_rest (root.course none)
    rwa [refused?_course] at h
  · rw [walk_fault?, ne_eq, Option.map_eq_none_iff, refused?, firstRefused?, List.find?_eq_none]
    simp [mem_preorder_iff]

end Node

end CallNotation
