import CallNotation.Node.Walk

/-!
# The nodes of a tree in the order of a walk

A walk comes to a node before it comes to the nodes below it, and goes through these in order. It
takes the four forms of program nodes and looks at nothing below any other, so the tree it sees is
`Node.preorder`. `Node.refused?` is the first node in this order that is of none of the four forms.

Result:
* `Node.mem_preorder_iff`: a walk comes to the nodes that are reached through the children of
  programs and calls.
-/

namespace CallNotation.Node

/-- The node is of one of the four forms that a walk takes. -/
def isWalked : Node → Bool
  | program _ => true
  | call _ _ => true
  | number _ => true
  | string _ => true
  | _ => false

mutual

/-- The nodes that a walk comes to: the node itself, and then those of its children in order. -/
def preorder : Node → List Node
  | program body => program body :: allPreorder body
  | call name params => call name params :: allPreorder params
  | node => [node]

/-- The nodes that a walk of trees in a row comes to. -/
def allPreorder : List Node → List Node
  | [] => []
  | n :: ns => n.preorder ++ allPreorder ns

end

/-- The first of some nodes that is of none of the four forms. -/
def firstRefused? (ns : List Node) : Option Node :=
  ns.find? (!·.isWalked)

/-- The first node of a tree that a walk does not take. -/
def refused? (n : Node) : Option Node :=
  firstRefused? n.preorder

theorem firstRefused?_cons {n : Node} (h : n.isWalked = true) (ns : List Node) :
    firstRefused? (n :: ns) = firstRefused? ns := by
  simp [firstRefused?, h]

theorem firstRefused?_append (ns ms : List Node) :
    firstRefused? (ns ++ ms) = (firstRefused? ns).or (firstRefused? ms) :=
  List.find?_append

/-- A node is reached from a root through the children of programs and calls. -/
inductive Reaches : Node → Node → Prop
  | self (n : Node) : Reaches n n
  | item {body : List Node} {m n : Node} (hm : m ∈ body) (h : Reaches m n) :
      Reaches (program body) n
  | argument {name : Text} {params : List Node} {m n : Node} (hm : m ∈ params)
      (h : Reaches m n) : Reaches (call name params) n

theorem mem_allPreorder {n : Node} {ns : List Node} :
    n ∈ allPreorder ns ↔ ∃ m ∈ ns, n ∈ m.preorder := by
  induction ns with
  | nil => simp [allPreorder]
  | cons m ns ih => simp [allPreorder, ih]

theorem mem_preorder_self (n : Node) : n ∈ n.preorder := by
  cases n <;> exact List.mem_cons_self

mutual

theorem reaches_of_mem : ∀ (root : Node) {n : Node}, n ∈ root.preorder → Reaches root n
  | program body, n, h => by
    rw [preorder, List.mem_cons] at h
    rcases h with rfl | h
    · exact .self _
    · obtain ⟨m, hm, hn⟩ := exists_reaches_of_mem body h
      exact .item hm hn
  | call name params, n, h => by
    rw [preorder, List.mem_cons] at h
    rcases h with rfl | h
    · exact .self _
    · obtain ⟨m, hm, hn⟩ := exists_reaches_of_mem params h
      exact .argument hm hn
  | number _, _, h => List.mem_singleton.mp h ▸ .self _
  | string _, _, h => List.mem_singleton.mp h ▸ .self _
  | bare, _, h => List.mem_singleton.mp h ▸ .self _
  | targetProgram _, _, h => List.mem_singleton.mp h ▸ .self _
  | statement _, _, h => List.mem_singleton.mp h ▸ .self _
  | targetCall _ _, _, h => List.mem_singleton.mp h ▸ .self _
  | identifier _, _, h => List.mem_singleton.mp h ▸ .self _
  | targetNumber _, _, h => List.mem_singleton.mp h ▸ .self _
  | targetString _, _, h => List.mem_singleton.mp h ▸ .self _
  | targetBare, _, h => List.mem_singleton.mp h ▸ .self _
  | foreign _, _, h => List.mem_singleton.mp h ▸ .self _

theorem exists_reaches_of_mem : ∀ (ns : List Node) {n : Node}, n ∈ allPreorder ns →
    ∃ m ∈ ns, Reaches m n
  | [], _, h => absurd h List.not_mem_nil
  | m :: ns, n, h => by
    rw [allPreorder, List.mem_append] at h
    rcases h with h | h
    · exact ⟨m, List.mem_cons_self, reaches_of_mem m h⟩
    · obtain ⟨m', hm', hn⟩ := exists_reaches_of_mem ns h
      exact ⟨m', List.mem_cons_of_mem m hm', hn⟩

end

/-- **A walk comes to the nodes that are reached** through the children of programs and calls. -/
theorem mem_preorder_iff {root n : Node} : n ∈ root.preorder ↔ Reaches root n := by
  refine ⟨reaches_of_mem root, fun h => ?_⟩
  induction h with
  | self n => exact mem_preorder_self n
  | item hm _ ih => exact List.mem_cons_of_mem _ (mem_allPreorder.mpr ⟨_, hm, ih⟩)
  | argument hm _ ih => exact List.mem_cons_of_mem _ (mem_allPreorder.mpr ⟨_, hm, ih⟩)

end CallNotation.Node
