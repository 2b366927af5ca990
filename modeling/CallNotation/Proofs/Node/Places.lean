import CallNotation.Proofs.Node.Preorder
import Mathlib.Data.List.TakeWhile

/-!
# Where the nodes of a tree stand

`Node.places` lists the nodes of a tree in preorder, each with the nodes around it. The nodes that a
walk comes to are those of the places in front of the first that it does not take, and this one.

Results:
* `Node.induction_on_children`: induction on trees, as a walk sees them.
* `Node.map_node_placesWithin`: without what is around them, the places are the preorder.
* **`Node.mem_places_iff`**: the places are those that are reached from child to child.
-/

namespace CallNotation

/-! ## Places -/

/-- A node of a tree and where it stands. -/
structure Place where
  /-- The node. -/
  node : Node
  /-- The nodes around it, innermost first. -/
  above : List Node

namespace Node

/-- The nodes right below a node, as a walk sees it. -/
def children : Node → List Node
  | program body => body
  | call _ params => params
  | _ => []

theorem sizeOf_lt_of_mem_children {m n : Node} (h : m ∈ n.children) : sizeOf m < sizeOf n := by
  cases n with
  | program body =>
    have hm : sizeOf m < sizeOf body := List.sizeOf_lt_of_mem h
    simp only [program.sizeOf_spec]
    omega
  | call name params =>
    have hm : sizeOf m < sizeOf params := List.sizeOf_lt_of_mem h
    simp only [call.sizeOf_spec]
    omega
  | _ => cases h

/-- What holds of each node that it holds of all children of holds of all nodes. -/
theorem induction_on_children {P : Node → Prop} (step : ∀ n, (∀ m ∈ n.children, P m) → P n)
    (n : Node) : P n :=
  step n fun m _ => induction_on_children step m
termination_by sizeOf n
decreasing_by exact sizeOf_lt_of_mem_children ‹_›

mutual

/-- The places of a tree in preorder, where the tree itself stands within the nodes `above`. -/
def placesWithin (above : List Node) : Node → List Place
  | program body => ⟨program body, above⟩ :: allPlacesWithin (program body :: above) body
  | call name params =>
    ⟨call name params, above⟩ :: allPlacesWithin (call name params :: above) params
  | node => [⟨node, above⟩]

/-- The places of trees in a row. -/
def allPlacesWithin (above : List Node) : List Node → List Place
  | [] => []
  | n :: ns => n.placesWithin above ++ allPlacesWithin above ns

end

/-- The places of a tree in preorder. -/
def places (root : Node) : List Place :=
  root.placesWithin []

/-- The first place is that of the tree itself, and the others are those of its children. -/
theorem placesWithin_eq (n : Node) (above : List Node) :
    n.placesWithin above = ⟨n, above⟩ :: allPlacesWithin (n :: above) n.children := by
  cases n <;> rfl

theorem preorder_eq (n : Node) : n.preorder = n :: allPreorder n.children := by
  cases n <;> rfl

theorem mem_allPlacesWithin {p : Place} {above ns : List Node} :
    p ∈ allPlacesWithin above ns ↔ ∃ n ∈ ns, p ∈ n.placesWithin above := by
  induction ns with
  | nil => simp [allPlacesWithin]
  | cons n ns ih => simp [allPlacesWithin, ih]

theorem map_node_allPlacesWithin {ns above : List Node}
    (h : ∀ n ∈ ns, (n.placesWithin above).map Place.node = n.preorder) :
    (allPlacesWithin above ns).map Place.node = allPreorder ns := by
  induction ns with
  | nil => rfl
  | cons n ns ih =>
    obtain ⟨hn, hns⟩ := List.forall_mem_cons.mp h
    rw [allPlacesWithin, List.map_append, hn, ih hns, allPreorder]

/-- The nodes of the places are those that a walk comes to. -/
theorem map_node_placesWithin (n : Node) : ∀ above : List Node,
    (n.placesWithin above).map Place.node = n.preorder := by
  induction n using induction_on_children with
  | step n ih =>
    intro above
    rw [placesWithin_eq, List.map_cons, map_node_allPlacesWithin fun m hm => ih m hm _, preorder_eq]

/-- A node is reached from a root by going from child to child; the nodes passed on the way are
listed, the last one first. -/
inductive Descends (root : Node) : List Node → Node → Prop
  | root : Descends root [] root
  | child {above : List Node} {m n : Node} (h : Descends root above m) (hn : n ∈ m.children) :
      Descends root (m :: above) n

theorem Descends.of_mem {root : Node} (n : Node) : ∀ {above : List Node}, Descends root above n →
    ∀ p ∈ n.placesWithin above, Descends root p.above p.node := by
  induction n using induction_on_children with
  | step n ih =>
    intro above h p hp
    rw [placesWithin_eq, List.mem_cons, mem_allPlacesWithin] at hp
    rcases hp with rfl | ⟨m, hm, hp⟩
    · exact h
    · exact ih m hm (h.child hm) p hp

/-- Where there is a node, there are its children. -/
theorem child_mem_placesWithin {m k : Node} {ms : List Node} (hk : k ∈ m.children) (n : Node) :
    ∀ {above : List Node}, ⟨m, ms⟩ ∈ n.placesWithin above →
      ⟨k, m :: ms⟩ ∈ n.placesWithin above := by
  induction n using induction_on_children with
  | step n ih =>
    intro above h
    rw [placesWithin_eq, List.mem_cons, mem_allPlacesWithin] at h ⊢
    rcases h with h | ⟨n', hn', h⟩
    · cases h
      refine .inr ⟨k, hk, ?_⟩
      rw [placesWithin_eq]
      exact List.mem_cons_self
    · exact .inr ⟨n', hn', ih n' hn' h⟩

/-- **The places of a tree** are those that are reached from child to child. -/
theorem mem_places_iff {root : Node} {p : Place} :
    p ∈ root.places ↔ Descends root p.above p.node := by
  have hmem : ∀ {above : List Node} {n : Node}, Descends root above n →
      (⟨n, above⟩ : Place) ∈ root.places := by
    intro above n h
    induction h with
    | root =>
      rw [places, placesWithin_eq]
      exact List.mem_cons_self
    | child _ hn ih => exact child_mem_placesWithin hn root ih
  exact ⟨Descends.of_mem root .root p, hmem⟩

/-! ## Up to the first node that is refused -/

/-- The places in front of the first node that a walk does not take. -/
def shown (ps : List Place) : List Place :=
  ps.takeWhile (·.node.isWalked)

/-- The place of the first node that a walk does not take. -/
def barrier? (ps : List Place) : Option Place :=
  ps.find? (!·.node.isWalked)

theorem shown_of_none {ps : List Place} (h : barrier? ps = none) : shown ps = ps :=
  List.takeWhile_eq_self_iff.mpr fun p hp => by simpa using List.find?_eq_none.mp h p hp

theorem map_node_barrier? (ps : List Place) :
    (barrier? ps).map Place.node = firstRefused? (ps.map Place.node) := by
  rw [firstRefused?, List.find?_map]
  rfl

theorem barrier?_placesWithin (n : Node) (above : List Node) :
    (barrier? (n.placesWithin above)).map Place.node = n.refused? := by
  rw [map_node_barrier?, map_node_placesWithin, refused?]

theorem barrier?_eq_none_iff {n : Node} {above : List Node} :
    barrier? (n.placesWithin above) = none ↔ n.refused? = none := by
  rw [← barrier?_placesWithin n above, Option.map_eq_none_iff]

theorem barrier?_allPlacesWithin (ns above : List Node) :
    (barrier? (allPlacesWithin above ns)).map Place.node = firstRefused? (allPreorder ns) := by
  rw [map_node_barrier?, map_node_allPlacesWithin fun n _ => n.map_node_placesWithin above]

/-- A node that a walk takes is shown, and what is shown behind it does not depend on it. -/
theorem shown_cons {p : Place} (h : p.node.isWalked = true) (ps : List Place) :
    shown (p :: ps) = p :: shown ps :=
  List.takeWhile_cons_of_pos h

theorem barrier?_cons {p : Place} (h : p.node.isWalked = true) (ps : List Place) :
    barrier? (p :: ps) = barrier? ps :=
  List.find?_cons_of_neg (by simp [h])

theorem shown_append_of_none {ps : List Place} (h : barrier? ps = none) (qs : List Place) :
    shown (ps ++ qs) = ps ++ shown qs :=
  List.takeWhile_append_of_pos fun p hp => by simpa using List.find?_eq_none.mp h p hp

theorem shown_append_of_some {ps : List Place} {p : Place} (h : barrier? ps = some p)
    (qs : List Place) : shown (ps ++ qs) = shown ps := by
  obtain ⟨hp, front, rest, rfl, hfront⟩ := List.find?_eq_some_iff_append.mp h
  have hfirst : ∀ rest, shown (front ++ p :: rest) = front := by
    intro rest
    rw [shown, List.takeWhile_append_of_pos (by simpa using hfront),
      List.takeWhile_cons_of_neg (by simpa using hp), List.append_nil]
  rw [List.append_assoc, List.cons_append, hfirst, hfirst]

theorem barrier?_append (ps qs : List Place) :
    barrier? (ps ++ qs) = (barrier? ps).or (barrier? qs) :=
  List.find?_append

end Node

end CallNotation
