import CallNotation.Node.Outline
import CallNotation.Proofs.Node.Places
import CallNotation.Proofs.Node.Rewriting

/-!
# What an outline shows

An outline has a line for each node of a tree in preorder, up to the first that a walk does not
take, indented by the number of nodes around the node. The indentation is a counter that callbacks
raise and lower. A walk comes to each node with the counter at the number of nodes around it. So the
counter is never to be lowered below zero, and where a walk is stopped, it tells how deep the node
stands that has stopped it.

Results:
* `Outline.walkFrom_guarded`: what a walk writes, and that each end of an entry lowers the counter.
* **`Outline.print_outlines`**: what printing any tree comes to, whatever was printed before.
-/

namespace CallNotation.Outline

open Node

/-- **The rules of entries.** -/
structure EntryRules (E : Node → Text) : Prop where
  /-- A program is named. -/
  program (body : List Node) : E (program body) = "Program".toList
  /-- Behind the word for a call is the name called. -/
  call (name : Text) (params : List Node) : E (call name params) = "Call: ".toList ++ name
  /-- Behind the word for a number are its digits. -/
  number (value : Text) : E (number value) = "Number: ".toList ++ value
  /-- Behind the word for a string is what it holds, in double quotes. -/
  string (value : Text) : E (string value) = "String: \"".toList ++ value ++ ['"']

theorem entryRules_entry : EntryRules entry where
  program _ := rfl
  call _ _ := rfl
  number _ := rfl
  string _ := rfl

/-- The line of a place, where nodes have the entries `E`: the entry of its node, behind two blanks
for each node around it. -/
def line (E : Node → Text) (p : Place) : Text :=
  List.replicate (2 * p.above.length) ' ' ++ E p.node

/-! ## Going through places -/

/-- The outline after a walk through places. -/
def through (o : Outline) (ps : List Place) : Outline :=
  { lines := o.lines ++ (shown ps).map (line entry)
    indent := match barrier? ps with
      | none => o.indent
      | some p => p.above.length }

theorem through_nil (o : Outline) : o.through [] = o :=
  congrArg (Outline.mk · _) (List.append_nil _)

theorem through_append_of_none {ps : List Place} (h : barrier? ps = none) (o : Outline)
    (qs : List Place) : o.through (ps ++ qs) = (o.through ps).through qs := by
  rw [through, through, through, shown_append_of_none h, barrier?_append, h, shown_of_none h,
    List.map_append, List.append_assoc, Option.none_or]

theorem through_append_of_some {ps : List Place} {p : Place} (h : barrier? ps = some p)
    (o : Outline) (qs : List Place) : o.through (ps ++ qs) = o.through ps := by
  rw [through, through, shown_append_of_some h, barrier?_append, h, Option.some_or]

theorem through_cons {p : Place} (h : p.node.isWalked = true) (o : Outline) (ps : List Place) :
    o.through (p :: ps) = (Outline.mk (o.lines ++ [line entry p]) o.indent).through ps := by
  rw [through, through, shown_cons h, barrier?_cons h, List.map_cons, List.append_assoc]
  rfl

section

variable {o : Outline} {n : Node} {above : List Node}

/-- An entry is the line of its node where the counter is at the number of nodes around it. -/
theorem emit_eq (ho : o.indent = above.length) :
    o.emit (entry n) = ⟨o.lines ++ [line entry ⟨n, above⟩], o.indent⟩ := by
  rw [emit, line, ho]

theorem emit_through (ho : o.indent = above.length) (h : n.isWalked = true) :
    o.emit (entry n) = o.through [⟨n, above⟩] := by
  rw [through_cons h, through_nil, emit_eq ho]

/-- A node that is refused has no line. -/
theorem through_refused (ho : o.indent = above.length) (h : n.isWalked = false) :
    o.through [⟨n, above⟩] = o := by
  have hshown : shown [⟨n, above⟩] = [] := List.takeWhile_cons_of_neg (by simp [h])
  have hbarrier : barrier? [⟨n, above⟩] = some ⟨n, above⟩ :=
    List.find?_cons_of_pos (by simp [h])
  rw [through, hshown, hbarrier, List.map_nil, List.append_nil]
  exact congrArg (Outline.mk o.lines) ho.symm

/-- Below an entry that is ended again the indentation is as before. -/
theorem closeEntry_through (ho : o.indent = above.length) (h : n.isWalked = true)
    {ps : List Place} (hps : barrier? ps = none) :
    ((o.openEntry (entry n)).through ps).closeEntry = o.through (⟨n, above⟩ :: ps) := by
  rw [through_cons h, openEntry, emit_eq ho, through, through, hps]
  rfl

/-- Below an entry that is not ended it is that of the node that is refused. -/
theorem openEntry_through (ho : o.indent = above.length) (h : n.isWalked = true)
    {ps : List Place} {p : Place} (hps : barrier? ps = some p) :
    (o.openEntry (entry n)).through ps = o.through (⟨n, above⟩ :: ps) := by
  rw [through_cons h, openEntry, emit_eq ho, through, through, hps]

end

/-! ## The counter -/

/-- The end of an entry lowers the indentation by one. -/
def lowers (_ : String) (phase : Phase) (o : Outline) : Bool :=
  match phase with
  | .enter => true
  | .exit => o.closeEntry.indent + 1 == o.indent

/-- The visitor that writes an outline, and fails where the end of an entry does not lower the
indentation by one. -/
def guardedVisitor : Visitor (Option Outline) :=
  visitor.guarded lowers

/-- The node has an entry that others are indented below. -/
def opens : Node → Bool
  | .program _ => true
  | .call _ _ => true
  | _ => false

theorem enter_opens {n : Node} (h : opens n = true) (parent : Option Node) (o : Outline) :
    guardedVisitor.enter n parent (some o) = some (o.openEntry (entry n)) := by
  cases n with
  | program _ => rfl
  | call _ _ => rfl
  | _ => cases h

theorem exit_opens {n : Node} (h : opens n = true) (parent : Option Node) {o : Outline}
    (ho : 0 < o.indent) : guardedVisitor.exit n parent (some o) = some o.closeEntry := by
  have hlowers : lowers n.kind .exit o = true := by
    simp only [lowers, closeEntry, beq_iff_eq]
    omega
  cases n with
  | program _ => exact if_pos hlowers
  | call _ _ => exact if_pos hlowers
  | _ => cases h

/-- A node with an entry to indent below is walked by its entry, its children and its end. -/
theorem walkFrom_opens {n : Node} (h : opens n = true) (parent : Option Node) (o : Outline) :
    walkFrom guardedVisitor parent n (some o) =
      guardedVisitor.leave n parent
        (walkAll guardedVisitor n n.children (some (o.openEntry (entry n)))) := by
  rw [← enter_opens h parent o]
  cases n with
  | program _ => rfl
  | call _ _ => rfl
  | _ => cases h

theorem isWalked_of_opens {n : Node} (h : opens n = true) : n.isWalked = true := by
  cases n with
  | program _ => rfl
  | call _ _ => rfl
  | _ => cases h

/-- Trees in a row are gone through if each of them is. -/
theorem walkAll_guarded {ns above : List Node} {parent : Node}
    (hns : ∀ n ∈ ns, ∀ {o : Outline}, o.indent = above.length →
      (walkFrom guardedVisitor (some parent) n (some o)).state =
        some (o.through (n.placesWithin above))) :
    ∀ {o : Outline}, o.indent = above.length →
      (walkAll guardedVisitor parent ns (some o)).state =
        some (o.through (allPlacesWithin above ns)) := by
  induction ns with
  | nil =>
    intro o _
    rw [allPlacesWithin, through_nil]
    rfl
  | cons n ns ih =>
    intro o ho
    obtain ⟨hn, hns⟩ := List.forall_mem_cons.mp hns
    have hstate := hn ho
    have hfault := walkFrom_fault? guardedVisitor n (some parent) (some o)
    rw [← barrier?_placesWithin n above] at hfault
    cases hbarrier : barrier? (n.placesWithin above) with
    | none =>
      rw [hbarrier] at hfault
      have hafter : (o.through (n.placesWithin above)).indent = above.length := by
        rw [through, hbarrier, ho]
      rw [walkAll_cons_of_none _ hfault, hstate, ih hns hafter, allPlacesWithin,
        through_append_of_none hbarrier]
    | some p =>
      rw [hbarrier] at hfault
      rw [walkAll_cons_of_some _ hfault, hstate, allPlacesWithin, through_append_of_some hbarrier]

/-- **A walk writes a line for each place** up to the first that it does not take, and each end of
an entry lowers the indentation by one. -/
theorem walkFrom_guarded (n : Node) : ∀ (parent : Option Node) {above : List Node} {o : Outline},
    o.indent = above.length →
      (walkFrom guardedVisitor parent n (some o)).state =
        some (o.through (n.placesWithin above)) := by
  induction n using induction_on_children with
  | step n ih =>
    intro parent above o ho
    cases hopens : opens n with
    | true =>
      have hwalked := isWalked_of_opens hopens
      have hbelow : (o.openEntry (entry n)).indent = (n :: above).length := congrArg (· + 1) ho
      have hstate := walkAll_guarded (fun m hm _ => ih m hm (some n)) hbelow
      have hfault := walkAll_fault? guardedVisitor n.children n (some (o.openEntry (entry n)))
      rw [← barrier?_allPlacesWithin n.children (n :: above)] at hfault
      rw [walkFrom_opens hopens, placesWithin_eq, Visitor.leave, hfault]
      cases hbarrier : barrier? (allPlacesWithin (n :: above) n.children) with
      | none =>
        -- all children have been gone through, so the counter is where the entry has put it
        have hindent : 0 < ((o.openEntry (entry n)).through
            (allPlacesWithin (n :: above) n.children)).indent := by
          rw [through, hbarrier, hbelow]
          exact Nat.succ_pos _
        rw [← closeEntry_through ho hwalked hbarrier, ← exit_opens hopens parent hindent, ← hstate]
        rfl
      | some p =>
        rw [← openEntry_through ho hwalked hbarrier, ← hstate]
        rfl
    | false =>
      cases n with
      | program _ => cases hopens
      | call _ _ => cases hopens
      | number _ => exact congrArg some (emit_through ho rfl)
      | string _ => exact congrArg some (emit_through ho rfl)
      | _ => exact congrArg some (through_refused ho rfl).symm

/-! ## Printing -/

/-- The outline that a walk of a tree leaves. -/
theorem walk_state (root : Node) :
    (root.walk visitor {}).state = ({} : Outline).through root.places :=
  Visitor.walk_state_of_guarded (walkFrom_guarded root none rfl)

/-- **What printing a tree comes to.** -/
theorem print_eq (o : Outline) (root : Node) :
    o.print root = match barrier? root.places with
      | none =>
        (.ok (Text.joinLines (root.places.map (line entry))), ⟨root.places.map (line entry), 0⟩)
      | some p =>
        (.error (.unwalkable p.node.kind),
          ⟨(shown root.places).map (line entry), p.above.length⟩) := by
  have hstate := walk_state root
  have hfault := walk_fault? visitor root {}
  rw [← barrier?_placesWithin root [], ← places] at hfault
  unfold print
  generalize root.walk visitor {} = w at hstate hfault
  obtain ⟨after, fault?⟩ := w
  cases hbarrier : barrier? root.places with
  | none =>
    rw [hbarrier] at hfault
    obtain rfl : fault? = none := hfault
    obtain rfl : after = _ := hstate
    rw [through, hbarrier, shown_of_none hbarrier]
    rfl
  | some p =>
    rw [hbarrier] at hfault
    obtain rfl : fault? = some (.unwalkable p.node.kind) := hfault
    obtain rfl : after = _ := hstate
    rw [through, hbarrier]
    rfl

/-- **What printing a tree comes to**, of any tree and whatever was printed before. There is a line
for each node in preorder that stands in front of the first one that a walk does not take: an entry
by the rules, behind two blanks for each node around the node. Without such a node the indentation
is 0 at the end, and the text is that of the lines. Otherwise the first such node is the fault, and
the indentation is the number of nodes around it. No end of an entry finds the indentation at 0. -/
theorem print_outlines (o : Outline) (root : Node) :
    (∃ E, EntryRules E ∧
      o.print root = match barrier? root.places with
        | none => (.ok (Text.joinLines (root.places.map (line E))), ⟨root.places.map (line E), 0⟩)
        | some p =>
          (.error (.unwalkable p.node.kind),
            ⟨(shown root.places).map (line E), p.above.length⟩)) ∧
    root.places.map Place.node = root.preorder ∧
    (∀ p, p ∈ root.places ↔ Descends root p.above p.node) ∧
    (root.walk guardedVisitor (some {})).state = some (root.walk visitor {}).state := by
  refine ⟨⟨entry, entryRules_entry, print_eq o root⟩, root.map_node_placesWithin [],
    fun p => mem_places_iff, ?_⟩
  rw [walk_state]
  exact walkFrom_guarded root none rfl

/-- A call in a call, and a node that is refused in front of a number. -/
example : ({} : Outline).print
      (program [call ['f'] [call ['g'] [string ['x']]], bare, number ['1']]) =
    (.error (.unwalkable "ASTNode"), ⟨["Program".toList, "  Call: f".toList,
      "    Call: g".toList, "      String: \"x\"".toList], 1⟩) := by rfl

end CallNotation.Outline
