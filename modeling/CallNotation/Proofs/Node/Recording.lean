import CallNotation.Proofs.Node.Places
import CallNotation.Proofs.Node.Rewriting

/-!
# What a recording tells

A recording that listens to all visits has two events for each node, with those of the nodes below
between them. So enters and exits answer each other as brackets do, and the innermost enter that is
still open is that of the node around. `Recorded` says without a walk what the events of trees in a
row are; what recordings have in common is proved by induction on it.

Kinds and labels may repeat, also from one level to the next. A recording tells the tree all the
same: `Event.reread` reads it with a stack that has a collection for each enter that is still open.

Results:
* `Node.recorded_iff`: the recording of a tree that can be walked.
* `Recorded.balanced`: enters and exits answer each other.
* `Recorded.exists_of_descends`: where the events of the nodes below are.
* `Recorded.foldl_reread`: what is read from a recording.
* **`Node.record_tells_tree`**: what a full recording of a tree tells.
-/

namespace CallNotation

/-! ## Enters and exits -/

namespace Event

/-- The enters that are open behind an event, innermost first, from those open in front of it. -/
def track (opened : List Event) (e : Event) : List Event :=
  match e.phase with
  | .enter => e :: opened
  | .exit => opened.tail

/-- The enters that are still open behind some events, innermost first. -/
def stillOpen (es : List Event) : List Event :=
  es.foldl track []

/-- Kind and label of the node of the innermost enter. -/
def innermost? (opened : List Event) : Option (String × Text) :=
  opened.head?.map fun e => (e.kind, e.label)

/-- **The event fits the enters that are open in front of it.** A node is entered within the node of
the innermost one. A node that is left is the node of the innermost one, and stands within the node
of the next. -/
def Fits (opened : List Event) (e : Event) : Prop :=
  match e.phase with
  | .enter => e.parent = innermost? opened
  | .exit => ∃ around, opened = { e with phase := .enter } :: around ∧ e.parent = innermost? around

/-- **The events are balanced**, and each tells the node that it stands within. -/
structure Balanced (es : List Event) : Prop where
  /-- Each event fits the enters that are still open behind those in front of it. -/
  fits {front back : List Event} {e : Event} (h : es = front ++ e :: back) :
    Fits (stillOpen front) e
  /-- No enter is open at the end. -/
  closed : stillOpen es = []

/-- Each event fits, where the enters `opened` are open in front of the first. -/
def AllFit : List Event → List Event → Prop
  | _, [] => True
  | opened, e :: es => Fits opened e ∧ AllFit (track opened e) es

theorem allFit_append {opened as bs : List Event} :
    AllFit opened (as ++ bs) ↔ AllFit opened as ∧ AllFit (as.foldl track opened) bs := by
  induction as generalizing opened with
  | nil => rw [List.nil_append, AllFit, true_and, List.foldl_nil]
  | cons e as ih => rw [List.cons_append, AllFit, ih, AllFit, List.foldl_cons, and_assoc]

theorem balanced_of_allFit {es : List Event} (h : AllFit [] es) (hclosed : stillOpen es = []) :
    Balanced es where
  fits := by
    rintro front back e rfl
    exact (allFit_append.mp h).2.1
  closed := hclosed

end Event

/-! ## The events of trees in a row -/

open Event (track stillOpen innermost? AllFit)

/-- **The events of trees in a row** that stand within a parent, if there is one: each tree is
entered, then come the events of its children, then it is left. -/
inductive Recorded : Option Node → List Node → List Event → Prop
  | nil (parent : Option Node) : Recorded parent [] []
  | cons {parent : Option Node} {n : Node} {ns : List Node} {inner rest : List Event}
      (hn : n.isWalked = true) (hinner : Recorded (some n) n.children inner)
      (hrest : Recorded parent ns rest) :
      Recorded parent (n :: ns)
        (.ofNode .enter n parent :: (inner ++ .ofNode .exit n parent :: rest))

namespace Recorded

variable {parent : Option Node} {n : Node} {ns : List Node} {es : List Event}

/-- There is one way to record trees in a row. -/
theorem unique (h : Recorded parent ns es) : ∀ {fs : List Event}, Recorded parent ns fs →
    es = fs := by
  induction h with
  | nil =>
    intro fs hfs
    cases hfs
    rfl
  | cons _ _ _ ihinner ihrest =>
    intro fs hfs
    cases hfs with
    | cons _ hinner hrest => rw [ihinner hinner, ihrest hrest]

/-- The enters that are open behind trees in a row are those that are open in front of them. -/
theorem foldl_track (h : Recorded parent ns es) (opened : List Event) :
    es.foldl track opened = opened := by
  induction h generalizing opened with
  | nil => rfl
  | @cons parent n ns inner rest _ _ _ ihinner ihrest =>
    rw [List.foldl_cons, List.foldl_append, ihinner, List.foldl_cons]
    exact ihrest opened

/-- **Events fit**, where the innermost enter in front of them is that of the parent. -/
theorem allFit (h : Recorded parent ns es) : ∀ {opened : List Event},
    innermost? opened = parent.map (fun p => (p.kind, p.label)) → AllFit opened es := by
  induction h with
  | nil => exact fun _ => trivial
  | @cons parent n ns inner rest _ hinner _ ihinner ihrest =>
    intro opened hopened
    refine ⟨hopened.symm, Event.allFit_append.mpr ⟨ihinner rfl, ?_⟩⟩
    -- behind the children the innermost enter is that of the node, as it was in front of them
    rw [hinner.foldl_track]
    exact ⟨⟨opened, rfl, hopened.symm⟩, ihrest hopened⟩

theorem balanced (h : Recorded none ns es) : Event.Balanced es :=
  Event.balanced_of_allFit (h.allFit rfl) (h.foldl_track [])

/-- Events within a parent tell that there is one. -/
theorem parent_isSome (h : Recorded parent ns es) (hparent : parent.isSome = true) :
    ∀ e ∈ es, e.parent.isSome = true := by
  induction h with
  | nil => exact List.forall_mem_nil _
  | cons _ _ _ ihinner ihrest =>
    have hevent : ∀ phase n, (Event.ofNode phase n _).parent.isSome = true :=
      fun _ _ => Option.isSome_map.trans hparent
    exact List.forall_mem_cons.mpr ⟨hevent _ _, List.forall_mem_append.mpr
      ⟨ihinner rfl, List.forall_mem_cons.mpr ⟨hevent _ _, ihrest hparent⟩⟩⟩

/-- Among the events of trees in a row are those of each tree. -/
theorem exists_of_mem (h : Recorded parent ns es) (hn : n ∈ ns) :
    ∃ front inner back, n.isWalked = true ∧ Recorded (some n) n.children inner ∧
      es = front ++ .ofNode .enter n parent :: (inner ++ .ofNode .exit n parent :: back) := by
  induction h with
  | nil => exact absurd hn List.not_mem_nil
  | @cons parent m ns before rest hm hbefore _ _ ih =>
    rcases List.mem_cons.mp hn with rfl | hn
    · exact ⟨[], before, rest, hm, hbefore, rfl⟩
    · obtain ⟨front, inner, back, hwalked, hinner, rfl⟩ := ih hn
      exact ⟨.ofNode .enter m parent :: (before ++ .ofNode .exit m parent :: front), inner, back,
        hwalked, hinner, by simp⟩

/-- **Among the events of a tree are those of each node below it.** -/
theorem exists_of_descends {root u : Node} {above : List Node} (h : Recorded none [root] es)
    (hu : Node.Descends root above u) :
    ∃ front inner back, u.isWalked = true ∧ Recorded (some u) u.children inner ∧
      es = front ++ .ofNode .enter u above.head? ::
        (inner ++ .ofNode .exit u above.head? :: back) := by
  induction hu with
  | root => exact h.exists_of_mem List.mem_cons_self
  | @child above m n _ hn ih =>
    obtain ⟨front, inner, back, -, hinner, rfl⟩ := ih
    obtain ⟨front', inner', back', hwalked, hinner', rfl⟩ := hinner.exists_of_mem hn
    exact ⟨front ++ .ofNode .enter m above.head? :: front', inner',
      back' ++ .ofNode .exit m above.head? :: back, hwalked, hinner', by simp⟩

end Recorded

/-! ## From events to trees -/

namespace Event

/-- The node that an event shows, with the children. -/
def node (e : Event) (children : List Node) : Node :=
  match e.kind with
  | "Program" => .program children
  | "CallExpression" => .call e.label children
  | "NumberLiteral" => .number e.label
  | "StringLiteral" => .string e.label
  | _ => .bare

/-- Reads an event. An enter opens a collection; an exit closes the innermost one and puts the node
that has its nodes as children into the next. -/
def reread (collections : List (List Node)) (e : Event) : List (List Node) :=
  match e.phase, collections with
  | .enter, cs => [] :: cs
  | .exit, inner :: outer :: cs => (outer ++ [e.node inner]) :: cs
  | .exit, cs => cs

theorem node_ofNode {n : Node} (h : n.isWalked = true) (phase : Phase) (parent : Option Node) :
    (ofNode phase n parent).node n.children = n := by
  cases n with
  | program _ => rfl
  | call _ _ => rfl
  | number _ => rfl
  | string _ => rfl
  | _ => cases h

end Event

/-- **What is read from a recording** are the trees that it is of. -/
theorem Recorded.foldl_reread {parent : Option Node} {ns : List Node} {es : List Event}
    (h : Recorded parent ns es) (c : List Node) (cs : List (List Node)) :
    es.foldl Event.reread (c :: cs) = (c ++ ns) :: cs := by
  induction h generalizing c cs with
  | nil => rw [List.foldl_nil, List.append_nil]
  | @cons parent n ns inner rest hn _ _ ihinner ihrest =>
    have hexit : Event.reread (n.children :: c :: cs) (.ofNode .exit n parent) =
        (c ++ [n]) :: cs :=
      congrArg (fun m => (c ++ [m]) :: cs) (Event.node_ofNode hn .exit parent)
    calc
      _ = (Event.ofNode .exit n parent :: rest).foldl Event.reread
            (inner.foldl Event.reread ([] :: c :: cs)) := List.foldl_append
      _ = rest.foldl Event.reread ((c ++ [n]) :: cs) := by
        rw [ihinner, List.nil_append, List.foldl_cons, hexit]
      _ = (c ++ n :: ns) :: cs := by rw [ihrest, List.append_assoc, List.singleton_append]

/-! ## Recordings of a walk -/

/-- The events of the visits that are listened to, up to the first refusal. -/
def Step.heard (listening : String → Phase → Bool) (steps : List Step) : List Event :=
  ((visits steps).filter fun x => listening x.node.kind x.phase).map Visit.event

theorem Step.heard_append {listening : String → Phase → Bool} {as : List Step}
    (h : refused? as = none) (bs : List Step) :
    heard listening (as ++ bs) = heard listening as ++ heard listening bs := by
  rw [heard, visits_append h, List.filter_append, List.map_append, heard, heard]

namespace Node

open Step (heard)

/-- The visits of program nodes are all listened to. -/
def ListensToAll (listening : String → Phase → Bool) : Prop :=
  ∀ n : Node, n.isWalked = true → ∀ phase, listening n.kind phase = true

section

variable {listening : String → Phase → Bool}

theorem heard_around (hlistening : ListensToAll listening) {n : Node} (hn : n.isWalked = true)
    (parent : Option Node) {inner : List Step} (hinner : Step.refused? inner = none) :
    heard listening (n.around parent inner) =
      .ofNode .enter n parent :: (heard listening inner ++ [.ofNode .exit n parent]) := by
  have hvisits : Step.visits (n.around parent inner) =
      ⟨.enter, n, parent⟩ :: (Step.visits inner ++ [⟨.exit, n, parent⟩]) := by
    rw [around, Step.visits, Step.visits_append hinner]
    rfl
  simp [heard, hvisits, hlistening n hn, Visit.event]

theorem refused?_course_of_walkable {n : Node} (h : n.Walkable) (parent : Option Node) :
    Step.refused? (n.course parent) = none :=
  (refused?_course n parent).trans (n.walkable_iff.mp h)

theorem refused?_courses_of_walkable {ns : List Node} (h : AllWalkable ns) (parent : Node) :
    Step.refused? (courses parent ns) = none :=
  (refused?_courses ns parent).trans ((allWalkable_iff ns).mp h)

mutual

theorem recorded_course (hlistening : ListensToAll listening) : ∀ (n : Node)
    (parent : Option Node) {ns : List Node} {rest : List Event}, n.Walkable →
      Recorded parent ns rest →
        Recorded parent (n :: ns) (heard listening (n.course parent) ++ rest)
  | program body, parent, ns, rest, h, hrest => by
    rw [course, heard_around hlistening rfl parent (refused?_courses_of_walkable h _),
      List.cons_append, List.append_assoc]
    exact .cons rfl (recorded_courses hlistening body (program body) h) hrest
  | call name params, parent, ns, rest, h, hrest => by
    rw [course, heard_around hlistening rfl parent (refused?_courses_of_walkable h _),
      List.cons_append, List.append_assoc]
    exact .cons rfl (recorded_courses hlistening params (call name params) h) hrest
  | number value, parent, _, _, _, hrest => by
    rw [course, heard_around hlistening rfl parent rfl]
    exact .cons (n := number value) rfl (.nil _) hrest
  | string value, parent, _, _, _, hrest => by
    rw [course, heard_around hlistening rfl parent rfl]
    exact .cons (n := string value) rfl (.nil _) hrest

theorem recorded_courses (hlistening : ListensToAll listening) : ∀ (ns : List Node)
    (parent : Node), AllWalkable ns →
      Recorded (some parent) ns (heard listening (courses parent ns))
  | [], _, _ => .nil _
  | n :: ns, parent, h => by
    rw [courses, Step.heard_append (refused?_course_of_walkable h.1 _)]
    exact recorded_course hlistening n (some parent) h.1
      (recorded_courses hlistening ns parent h.2)

end

theorem walkable_of_children {n : Node} (hn : n.isWalked = true) (h : AllWalkable n.children) :
    n.Walkable := by
  cases n with
  | program _ => exact h
  | call _ _ => exact h
  | number _ => exact h
  | string _ => exact h
  | _ => cases hn

theorem allWalkable_of_recorded {parent : Option Node} {ns : List Node} {es : List Event}
    (h : Recorded parent ns es) : AllWalkable ns := by
  induction h with
  | nil => trivial
  | cons hn _ _ ihinner ihrest => exact ⟨walkable_of_children hn ihinner, ihrest⟩

/-- **The recording of a tree that can be walked**, and there is none of any other. -/
theorem recorded_iff (hlistening : ListensToAll listening) {n : Node} {es : List Event} :
    Recorded none [n] es ↔ n.Walkable ∧ (n.record listening).state = es := by
  have hrecord : n.Walkable → Recorded none [n] (n.record listening).state := by
    intro h
    have hcourse := recorded_course hlistening n none h (.nil none)
    rwa [List.append_nil, heard, ← visits, ← record_state] at hcourse
  refine ⟨fun h => ?_, ?_⟩
  · have hn := (allWalkable_of_recorded h).1
    exact ⟨hn, (hrecord hn).unique h⟩
  · rintro ⟨hn, rfl⟩
    exact hrecord hn

end

/-- **What a full recording of a tree tells.** The walk goes to its end. No other tree has the same
recording. The events are balanced, and each tells the node of the innermost enter that is still
open, which there is for all but the two events of the root. Each node below has a stretch of the
events that is its own recording, but that its own two events tell the node above it. -/
theorem record_tells_tree {listening : String → Phase → Bool} (hlistening : ListensToAll listening)
    {a : Node} (ha : a.Walkable) :
    (a.record listening).fault? = none ∧
    (∀ b : Node, b.Walkable → (a.record listening).state = (b.record listening).state → a = b) ∧
    Event.Balanced (a.record listening).state ∧
    (∃ inner, (a.record listening).state =
        .ofNode .enter a none :: (inner ++ [.ofNode .exit a none]) ∧
      ∀ e ∈ inner, e.parent.isSome = true) ∧
    ∀ (above : List Node) (u : Node), Descends a above u → ∃ front inner back,
      (u.record listening).state = .ofNode .enter u none :: (inner ++ [.ofNode .exit u none]) ∧
      (a.record listening).state = front ++ .ofNode .enter u above.head? ::
        (inner ++ .ofNode .exit u above.head? :: back) := by
  have hrecorded : ∀ {n : Node}, n.Walkable → Recorded none [n] (n.record listening).state :=
    fun hn => (recorded_iff hlistening).mpr ⟨hn, rfl⟩
  -- the recording of a node from that of its children
  have hwhole : ∀ {n : Node} {inner : List Event}, n.isWalked = true →
      Recorded (some n) n.children inner →
        (n.record listening).state = .ofNode .enter n none :: (inner ++ [.ofNode .exit n none]) :=
    fun hn hinner => ((recorded_iff hlistening).mp (.cons hn hinner (.nil none))).2
  refine ⟨?_, ?_, (hrecorded ha).balanced, ?_, ?_⟩
  · rw [record, walk_fault?, a.walkable_iff.mp ha, Option.map_none]
  · intro b hb hab
    have hread := (hrecorded ha).foldl_reread [] []
    rw [hab, (hrecorded hb).foldl_reread] at hread
    exact (List.cons.inj (List.cons.inj hread).1).1.symm
  · obtain ⟨-, inner, -, hwalked, hinner, -⟩ := (hrecorded ha).exists_of_descends .root
    exact ⟨inner, hwhole hwalked hinner, hinner.parent_isSome rfl⟩
  · intro above u hu
    obtain ⟨front, inner, back, hwalked, hinner, hstate⟩ := (hrecorded ha).exists_of_descends hu
    exact ⟨front, inner, back, hwhole hwalked hinner, hstate⟩

/-- The number is an argument of the inner or of the outer call, and both have the same name. So the
trees have the same enters, with the same parents, and just the exits tell them apart. -/
theorem record_tells_tree_repeated :
    ListensToAll (fun _ _ => true) ∧
    (program [call ['f'] [call ['f'] [number ['1']]]]).Walkable ∧
    (program [call ['f'] [call ['f'] [], number ['1']]]).Walkable ∧
    ((program [call ['f'] [call ['f'] [number ['1']]]]).record
        fun _ _ => true).state.filter (·.phase = .enter) =
      ((program [call ['f'] [call ['f'] [], number ['1']]]).record
        fun _ _ => true).state.filter (·.phase = .enter) ∧
    ((program [call ['f'] [call ['f'] [number ['1']]]]).record fun _ _ => true).state ≠
      ((program [call ['f'] [call ['f'] [], number ['1']]]).record fun _ _ => true).state ∧
    Event.Balanced ((program [call ['f'] [call ['f'] [number ['1']]]]).record
      fun _ _ => true).state ∧
    ∃ front inner back,
      ((number ['1']).record fun _ _ => true).state =
        .ofNode .enter (number ['1']) none :: (inner ++ [.ofNode .exit (number ['1']) none]) ∧
      ((program [call ['f'] [call ['f'] [number ['1']]]]).record fun _ _ => true).state =
        front ++ .ofNode .enter (number ['1']) (some (call ['f'] [number ['1']])) ::
          (inner ++ .ofNode .exit (number ['1']) (some (call ['f'] [number ['1']])) :: back) := by
  have hlistening : ListensToAll (fun _ _ => true) := fun _ _ _ => rfl
  have ha : (program [call ['f'] [call ['f'] [number ['1']]]]).Walkable := by
    simp [Walkable, AllWalkable]
  have hb : (program [call ['f'] [call ['f'] [], number ['1']]]).Walkable := by
    simp [Walkable, AllWalkable]
  have hdescends : Descends (program [call ['f'] [call ['f'] [number ['1']]]])
      [call ['f'] [number ['1']], call ['f'] [call ['f'] [number ['1']]],
        program [call ['f'] [call ['f'] [number ['1']]]]] (number ['1']) :=
    .child (.child (.child .root (List.mem_singleton_self _)) (List.mem_singleton_self _))
      (List.mem_singleton_self _)
  obtain ⟨-, hinjective, hbalanced, -, hblock⟩ := record_tells_tree hlistening ha
  exact ⟨hlistening, ha, hb, by decide +kernel, fun h => absurd (hinjective _ hb h) (by simp),
    hbalanced, hblock _ _ hdescends⟩

end Node

end CallNotation
