import CallNotation.Proofs.Node.Image
import Mathlib.Algebra.GroupWithZero.Nat

/-!
# Renderings in pieces

A rendering comes to the nodes of a tree in the order of `Node.renderOrder`, where the arguments of
a call stand before its callee, although the text has them behind it. The first node that is not of
the language to render is the fault. Without one, the text is put together of pieces: those that the
nodes bring along, and the gaps between the parts of a program and between arguments. The
separators fill the gaps, and nothing else depends on them.

Results:
* `Node.mem_renderOrder_iff`: a rendering comes to the nodes that are reached through programs,
  statements and calls.
* `Node.renderWith_eq`: a rendering is its pieces, or it is refused.
* `Node.count_segments`: how many gaps there are.
* **`Node.renderWith_fills`**: what the rendering of any tree comes to, with any separators.
-/

namespace CallNotation

/-! ## Pieces -/

/-- A place between two neighbours that a separator fills. -/
inductive Gap where
  /-- Between two parts of a program. -/
  | statements
  /-- Between two arguments. -/
  | arguments
deriving DecidableEq

/-- A piece of a rendering. -/
inductive Segment where
  /-- A text that stands as it is. -/
  | text (t : Text)
  /-- A gap. -/
  | gap (g : Gap)
deriving DecidableEq

namespace Separators

/-- What stands in a gap. -/
def between (s : Separators) : Gap → Text
  | .statements => s.statements
  | .arguments => s.arguments

/-- The text of a piece. -/
def fill (s : Separators) : Segment → Text
  | .text t => t
  | .gap g => s.between g

end Separators

namespace Node

mutual

/-- The pieces of a rendering. -/
def segments : Node → List Segment
  | targetProgram body => List.intercalate [.gap .statements] (allSegments body)
  | statement expression => expression.segments ++ [.text [';']]
  | targetCall callee arguments =>
    callee.segments ++ .text ['('] ::
      List.intercalate [.gap .arguments] (allSegments arguments) ++ [.text [')']]
  | identifier name => [.text name]
  | targetNumber value => [.text value]
  | targetString value => [.text ('"' :: value ++ ['"'])]
  | _ => []

/-- The pieces of each of some renderings. -/
def allSegments : List Node → List (List Segment)
  | [] => []
  | n :: ns => n.segments :: allSegments ns

end

/-- **The rules of rendering in pieces.** -/
structure SegmentRules (S : Node → List Segment) : Prop where
  /-- Between the parts of a program there are gaps, and there is nothing else. -/
  program (body : List Node) :
    S (targetProgram body) = List.intercalate [.gap .statements] (body.map S)
  /-- Behind a statement is a semicolon. -/
  statement (expression : Node) : S (statement expression) = S expression ++ [.text [';']]
  /-- Behind a callee are the arguments in parentheses, with gaps between them. -/
  call (callee : Node) (arguments : List Node) :
    S (targetCall callee arguments) = S callee ++ .text ['('] ::
      List.intercalate [.gap .arguments] (arguments.map S) ++ [.text [')']]
  /-- An identifier stands as it is. -/
  identifier (name : Text) : S (identifier name) = [.text name]
  /-- So does a number. -/
  number (value : Text) : S (targetNumber value) = [.text value]
  /-- A string is put in double quotes. -/
  string (value : Text) : S (targetString value) = [.text ('"' :: value ++ ['"'])]

theorem allSegments_eq_map (ns : List Node) : allSegments ns = ns.map segments := by
  induction ns with
  | nil => rfl
  | cons n ns ih => rw [allSegments, ih, List.map_cons]

theorem segmentRules_segments : SegmentRules segments where
  program body := by rw [segments, allSegments_eq_map]
  statement _ := rfl
  call callee arguments := by rw [segments, allSegments_eq_map]
  identifier _ := rfl
  number _ := rfl
  string _ := rfl

/-! ## The order -/

mutual

/-- The nodes that a rendering comes to: the node itself, and then those below it, of a call those
below the arguments first. -/
def renderOrder : Node → List Node
  | targetProgram body => targetProgram body :: allRenderOrder body
  | statement expression => statement expression :: expression.renderOrder
  | targetCall callee arguments =>
    targetCall callee arguments :: (allRenderOrder arguments ++ callee.renderOrder)
  | node => [node]

/-- The nodes that renderings in a row come to. -/
def allRenderOrder : List Node → List Node
  | [] => []
  | n :: ns => n.renderOrder ++ allRenderOrder ns

end

/-- The first of some nodes that is not of the language to render. -/
def firstUnrendered? (ns : List Node) : Option Node :=
  ns.find? (!·.isTarget)

/-- The first node of a tree that a rendering does not take. -/
def unrendered? (n : Node) : Option Node :=
  firstUnrendered? n.renderOrder

theorem firstUnrendered?_cons {n : Node} (h : n.isTarget = true) (ns : List Node) :
    firstUnrendered? (n :: ns) = firstUnrendered? ns := by
  simp [firstUnrendered?, h]

theorem firstUnrendered?_append (ns ms : List Node) :
    firstUnrendered? (ns ++ ms) = (firstUnrendered? ns).or (firstUnrendered? ms) :=
  List.find?_append

/-- A node is reached from a root through the parts of programs, the expressions of statements, and
the callees and arguments of calls. -/
inductive Comprises : Node → Node → Prop
  | self (n : Node) : Comprises n n
  | part {body : List Node} {m n : Node} (hm : m ∈ body) (h : Comprises m n) :
      Comprises (targetProgram body) n
  | expression {m n : Node} (h : Comprises m n) : Comprises (statement m) n
  | callee {m n : Node} {arguments : List Node} (h : Comprises m n) :
      Comprises (targetCall m arguments) n
  | argument {callee m n : Node} {arguments : List Node} (hm : m ∈ arguments)
      (h : Comprises m n) : Comprises (targetCall callee arguments) n

theorem mem_allRenderOrder {n : Node} {ns : List Node} :
    n ∈ allRenderOrder ns ↔ ∃ m ∈ ns, n ∈ m.renderOrder := by
  induction ns with
  | nil => simp [allRenderOrder]
  | cons m ns ih => simp [allRenderOrder, ih]

theorem mem_renderOrder_self (n : Node) : n ∈ n.renderOrder := by
  cases n <;> exact List.mem_cons_self

mutual

theorem comprises_of_mem : ∀ (root : Node) {n : Node}, n ∈ root.renderOrder → Comprises root n
  | targetProgram body, n, h => by
    rw [renderOrder, List.mem_cons] at h
    rcases h with rfl | h
    · exact .self _
    · obtain ⟨m, hm, hn⟩ := exists_comprises_of_mem body h
      exact .part hm hn
  | statement expression, n, h => by
    rw [renderOrder, List.mem_cons] at h
    rcases h with rfl | h
    · exact .self _
    · exact .expression (comprises_of_mem expression h)
  | targetCall callee arguments, n, h => by
    rw [renderOrder, List.mem_cons, List.mem_append] at h
    rcases h with rfl | h | h
    · exact .self _
    · obtain ⟨m, hm, hn⟩ := exists_comprises_of_mem arguments h
      exact .argument hm hn
    · exact .callee (comprises_of_mem callee h)
  | identifier _, _, h => List.mem_singleton.mp h ▸ .self _
  | targetNumber _, _, h => List.mem_singleton.mp h ▸ .self _
  | targetString _, _, h => List.mem_singleton.mp h ▸ .self _
  | program _, _, h => List.mem_singleton.mp h ▸ .self _
  | call _ _, _, h => List.mem_singleton.mp h ▸ .self _
  | number _, _, h => List.mem_singleton.mp h ▸ .self _
  | string _, _, h => List.mem_singleton.mp h ▸ .self _
  | bare, _, h => List.mem_singleton.mp h ▸ .self _
  | targetBare, _, h => List.mem_singleton.mp h ▸ .self _
  | foreign _, _, h => List.mem_singleton.mp h ▸ .self _

theorem exists_comprises_of_mem : ∀ (ns : List Node) {n : Node}, n ∈ allRenderOrder ns →
    ∃ m ∈ ns, Comprises m n
  | [], _, h => absurd h List.not_mem_nil
  | m :: ns, n, h => by
    rw [allRenderOrder, List.mem_append] at h
    rcases h with h | h
    · exact ⟨m, List.mem_cons_self, comprises_of_mem m h⟩
    · obtain ⟨m', hm', hn⟩ := exists_comprises_of_mem ns h
      exact ⟨m', List.mem_cons_of_mem m hm', hn⟩

end

/-- **A rendering comes to the nodes that are reached.** -/
theorem mem_renderOrder_iff {root n : Node} : n ∈ root.renderOrder ↔ Comprises root n := by
  refine ⟨comprises_of_mem root, fun h => ?_⟩
  induction h with
  | self n => exact mem_renderOrder_self n
  | part hm _ ih => exact List.mem_cons_of_mem _ (mem_allRenderOrder.mpr ⟨_, hm, ih⟩)
  | expression _ ih => exact List.mem_cons_of_mem _ ih
  | callee _ ih => exact List.mem_cons_of_mem _ (List.mem_append_right _ ih)
  | argument hm _ ih =>
    exact List.mem_cons_of_mem _ (List.mem_append_left _ (mem_allRenderOrder.mpr ⟨_, hm, ih⟩))

/-! ## The text -/

theorem flatMap_intercalate {α β : Type} (f : α → List β) (sep : List α) (parts : List (List α)) :
    (List.intercalate sep parts).flatMap f =
      List.intercalate (sep.flatMap f) (parts.map (·.flatMap f)) := by
  induction parts with
  | nil => rfl
  | cons part parts ih =>
    cases parts with
    | nil => simp
    | cons part' parts =>
      rw [List.intercalate_cons_cons, List.flatMap_append, List.flatMap_append, ih]
      simp only [List.map_cons, List.intercalate_cons_cons]

/-- To fill the gaps is to put the separator between the parts. -/
theorem fill_intercalate (s : Separators) (g : Gap) (parts : List (List Segment)) :
    (List.intercalate [.gap g] parts).flatMap s.fill =
      List.intercalate (s.between g) (parts.map (·.flatMap s.fill)) := by
  rw [flatMap_intercalate, List.flatMap_singleton]
  rfl

mutual

/-- **A rendering is its pieces**, with the gaps filled, unless the tree holds a node that is not of
the language to render. -/
theorem renderWith_eq (s : Separators) : ∀ n : Node,
    n.renderWith s = match n.unrendered? with
      | none => .ok (n.segments.flatMap s.fill)
      | some m => .error (.unrenderable m.kind)
  | targetProgram body => by
    rw [renderWith, renderAll_eq s body, unrendered?, renderOrder, firstUnrendered?_cons rfl,
      segments, fill_intercalate]
    cases firstUnrendered? (allRenderOrder body) <;> rfl
  | statement expression => by
    rw [renderWith, renderWith_eq s expression, unrendered?, unrendered?, renderOrder,
      firstUnrendered?_cons rfl, segments, List.flatMap_append, List.flatMap_singleton]
    cases firstUnrendered? expression.renderOrder <;> rfl
  | targetCall callee arguments => by
    have hsegments : (targetCall callee arguments).segments.flatMap s.fill =
        callee.segments.flatMap s.fill ++ '(' :: List.intercalate s.arguments
          ((allSegments arguments).map (·.flatMap s.fill)) ++ [')'] := by
      rw [segments, List.flatMap_append, List.flatMap_append, List.flatMap_cons, fill_intercalate]
      rfl
    rw [renderWith, renderAll_eq s arguments, renderWith_eq s callee, unrendered?, unrendered?,
      renderOrder, firstUnrendered?_cons rfl, firstUnrendered?_append, hsegments]
    -- the callee is not looked at if an argument is refused
    cases firstUnrendered? (allRenderOrder arguments) with
    | some m => rfl
    | none => cases firstUnrendered? callee.renderOrder <;> rfl
  | identifier name => by
    rw [segments, List.flatMap_singleton]
    rfl
  | targetNumber value => by
    rw [segments, List.flatMap_singleton]
    rfl
  | targetString value => by
    rw [segments, List.flatMap_singleton]
    rfl
  | program _ => rfl
  | call _ _ => rfl
  | number _ => rfl
  | string _ => rfl
  | bare => rfl
  | targetBare => rfl
  | foreign _ => rfl

theorem renderAll_eq (s : Separators) : ∀ ns : List Node,
    renderAll s ns = match firstUnrendered? (allRenderOrder ns) with
      | none => .ok ((allSegments ns).map (·.flatMap s.fill))
      | some m => .error (.unrenderable m.kind)
  | [] => rfl
  | n :: ns => by
    rw [renderAll, renderWith_eq s n, renderAll_eq s ns, allRenderOrder, firstUnrendered?_append,
      unrendered?, allSegments, List.map_cons]
    cases firstUnrendered? n.renderOrder with
    | some m => rfl
    | none => cases firstUnrendered? (allRenderOrder ns) <;> rfl

end

/-! ## The number of gaps -/

/-- The gaps that a node has between its own parts or arguments: one less than there are of them,
and none if there are none. -/
def gaps : Gap → Node → Nat
  | .statements, targetProgram body => body.length - 1
  | .arguments, targetCall _ arguments => arguments.length - 1
  | _, _ => 0

theorem count_intercalate {α : Type} [BEq α] (x : α) (sep : List α) (parts : List (List α)) :
    (List.intercalate sep parts).count x =
      (parts.length - 1) * sep.count x + (parts.map (·.count x)).sum := by
  induction parts with
  | nil => simp
  | cons part parts ih =>
    cases parts with
    | nil => simp
    | cons part' parts =>
      rw [List.intercalate_cons_cons, List.count_append, List.count_append, ih]
      simp only [List.map_cons, List.sum_cons, List.length_cons, Nat.add_sub_cancel, Nat.succ_mul]
      omega

theorem length_allSegments (ns : List Node) : (allSegments ns).length = ns.length := by
  rw [allSegments_eq_map, List.length_map]

mutual

/-- **The gaps of a rendering** are those that its nodes have. -/
theorem count_segments (g : Gap) : ∀ n : Node,
    n.segments.count (.gap g) = (n.renderOrder.map (gaps g)).sum
  | targetProgram body => by
    rw [segments, count_intercalate, length_allSegments, count_allSegments g body, renderOrder,
      List.map_cons, List.sum_cons]
    cases g <;> simp [gaps]
  | statement expression => by
    rw [segments, List.count_append, count_segments g expression, renderOrder, List.map_cons,
      List.sum_cons]
    cases g <;> simp [gaps]
  | targetCall callee arguments => by
    rw [segments, List.count_append, List.count_append, List.count_cons, count_intercalate,
      length_allSegments, count_allSegments g arguments, count_segments g callee, renderOrder,
      List.map_cons, List.sum_cons, List.map_append, List.sum_append]
    cases g <;> simp [gaps] <;> omega
  | identifier _ => by cases g <;> rfl
  | targetNumber _ => by cases g <;> rfl
  | targetString _ => by cases g <;> rfl
  | program _ => by cases g <;> rfl
  | call _ _ => by cases g <;> rfl
  | number _ => by cases g <;> rfl
  | string _ => by cases g <;> rfl
  | bare => by cases g <;> rfl
  | targetBare => by cases g <;> rfl
  | foreign _ => by cases g <;> rfl

theorem count_allSegments (g : Gap) : ∀ ns : List Node,
    ((allSegments ns).map (·.count (.gap g))).sum = ((allRenderOrder ns).map (gaps g)).sum
  | [] => rfl
  | n :: ns => by
    rw [allSegments, List.map_cons, List.sum_cons, count_segments g n, count_allSegments g ns,
      allRenderOrder, List.map_append, List.sum_append]

end

/-- **What the rendering of a tree comes to**, of any tree and with any separators. The nodes that
are reached are looked at in order, the arguments of a call before its callee. The first that is not
of the language to render is the fault, whatever the separators are, and there is a fault just if
such a node is reached. Otherwise the text is that of the pieces, which the rules tell without the
separators; these fill the gaps, of which there are as many as there are pairs of neighbours. -/
theorem renderWith_fills (n : Node) :
    SegmentRules segments ∧
    (∀ s : Separators, n.renderWith s = match n.unrendered? with
      | none => .ok (n.segments.flatMap s.fill)
      | some m => .error (.unrenderable m.kind)) ∧
    (∀ m, m ∈ n.renderOrder ↔ Comprises n m) ∧
    (∀ s : Separators, (∃ f, n.renderWith s = .error f) ↔
      ∃ m, Comprises n m ∧ m.isTarget = false) ∧
    ∀ g, n.segments.count (.gap g) = (n.renderOrder.map (gaps g)).sum := by
  refine ⟨segmentRules_segments, fun s => renderWith_eq s n, fun m => mem_renderOrder_iff,
    fun s => ?_, fun g => count_segments g n⟩
  have hfault : (∃ f, n.renderWith s = .error f) ↔ n.unrendered? ≠ none := by
    rw [renderWith_eq]
    cases n.unrendered? <;> simp
  rw [hfault, unrendered?, firstUnrendered?, ne_eq, List.find?_eq_none]
  simp [mem_renderOrder_iff]

/-- Of two nodes that are refused, the argument comes first, though the callee stands first in the
text. -/
example : (targetCall (foreign .missing) [identifier ['f'], bare]).render =
    .error (.unrenderable "ASTNode") := by rfl

end Node

end CallNotation
