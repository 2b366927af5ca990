import CallNotation.Proofs.Compile.Language
import CallNotation.Proofs.Node.Image
import CallNotation.Proofs.Node.Outline
import CallNotation.Proofs.Text.Words

/-!
# The outline of a program

The outline of a program has a row for each of its expressions, and the row of an argument is one
level deeper than that of the call it belongs to. A string may hold line feeds and look like rows,
but it ends at the first double quote; names and numbers are runs of letters and digits. So a row
can be told from the text that begins with it, and the program from the depths of its rows.

Results:
* `Expr.listRows_cancel`: expressions are told by their rows.
* `Row.prefixFree`: rows are told by their text.
* `Program.outline_toNode`: the outline of a program is the text of its rows.
* **`outline_tells_program`**: two texts that can be parsed are the same program if they have the
  same outline.
-/

namespace CallNotation

open Node (Mark)

/-! ## Rows -/

namespace Node.Mark

/-- The entry of a node that says the mark. -/
def entry : Mark → Text
  | call name => "Call: ".toList ++ name
  | number digits => "Number: ".toList ++ digits
  | string value => "String: \"".toList ++ value ++ ['"']

/-- Names are runs of letters, numbers runs of digits, and no string holds a double quote. -/
def Valid : Mark → Prop
  | call name => ∀ c ∈ name, c.isAlpha = true
  | number digits => ∀ c ∈ digits, c.isDigit = true
  | string value => '"' ∉ value

end Node.Mark

/-- A row of an outline. -/
structure Row where
  /-- The number of nodes around the one that has the row. -/
  depth : Nat
  /-- What the node says. -/
  mark : Mark
deriving DecidableEq

/-- The text of a row. -/
def Row.text (r : Row) : Text :=
  List.replicate (2 * r.depth) ' ' ++ r.mark.entry

namespace Expr

mutual

/-- The rows of an expression that stands within `depth` nodes. -/
def rows (depth : Nat) : Expr → List Row
  | number digits => [⟨depth, .number digits⟩]
  | string value => [⟨depth, .string value⟩]
  | call name args => ⟨depth, .call name⟩ :: listRows (depth + 1) args

/-- The rows of expressions in a row. -/
def listRows (depth : Nat) : List Expr → List Row
  | [] => []
  | e :: es => e.rows depth ++ listRows depth es

end

/-! ## From rows to expressions -/

/-- What follows the rows of expressions at a depth begins with no row as deep. -/
def Shallower (depth : Nat) (rs : List Row) : Prop :=
  ∀ r ∈ rs.head?, r.depth < depth

/-- The first row of an expression is its own. -/
theorem head?_rows (depth : Nat) (e : Expr) (rs : List Row) :
    ∃ mark, (e.rows depth ++ rs).head? = some ⟨depth, mark⟩ := by
  cases e with
  | number digits => exact ⟨_, rfl⟩
  | string value => exact ⟨_, rfl⟩
  | call name args => exact ⟨_, rfl⟩

theorem head?_listRows (depth : Nat) (e : Expr) (es : List Expr) (rs : List Row) :
    ∃ mark, (listRows depth (e :: es) ++ rs).head? = some ⟨depth, mark⟩ := by
  rw [listRows, List.append_assoc]
  exact e.head?_rows depth _

theorem not_shallower_listRows (depth : Nat) (e : Expr) (es : List Expr) (rs : List Row) :
    ¬ Shallower depth (listRows depth (e :: es) ++ rs) := by
  obtain ⟨mark, hhead⟩ := head?_listRows depth e es rs
  exact fun h => Nat.lt_irrefl depth (h _ hhead)

theorem Shallower.listRows {depth : Nat} {rs : List Row} (h : Shallower depth rs)
    (es : List Expr) : Shallower (depth + 1) (Expr.listRows depth es ++ rs) := by
  intro r hr
  cases es with
  | nil => exact Nat.lt_succ_of_lt (h r hr)
  | cons e es =>
    obtain ⟨mark, hhead⟩ := head?_listRows depth e es rs
    rw [hhead] at hr
    cases hr
    exact Nat.lt_succ_self depth

mutual

/-- An expression is told by its rows, as long as no row behind them is deeper. -/
theorem rows_cancel {depth : Nat} : ∀ {e f : Expr} {rs rs' : List Row},
    Shallower (depth + 1) rs → Shallower (depth + 1) rs' →
      e.rows depth ++ rs = f.rows depth ++ rs' → e = f ∧ rs = rs'
  | .number _, .number _, _, _, _, _, h => by
    cases h
    exact ⟨rfl, rfl⟩
  | .string _, .string _, _, _, _, _, h => by
    cases h
    exact ⟨rfl, rfl⟩
  | .call name args, .call name' args', rs, rs', hrs, hrs', h => by
    obtain ⟨hrow, hrest⟩ := List.cons.inj h
    obtain ⟨rfl, rfl⟩ := listRows_cancel hrs hrs' hrest
    cases hrow
    exact ⟨rfl, rfl⟩
  | .number _, .string _, _, _, _, _, h => nomatch (List.cons.inj h).1
  | .number _, .call _ _, _, _, _, _, h => nomatch (List.cons.inj h).1
  | .string _, .number _, _, _, _, _, h => nomatch (List.cons.inj h).1
  | .string _, .call _ _, _, _, _, _, h => nomatch (List.cons.inj h).1
  | .call _ _, .number _, _, _, _, _, h => nomatch (List.cons.inj h).1
  | .call _ _, .string _, _, _, _, _, h => nomatch (List.cons.inj h).1

/-- **Expressions are told by their rows**, as long as no row behind them is as deep. -/
theorem listRows_cancel {depth : Nat} : ∀ {es fs : List Expr} {rs rs' : List Row},
    Shallower depth rs → Shallower depth rs' →
      listRows depth es ++ rs = listRows depth fs ++ rs' → es = fs ∧ rs = rs'
  | [], [], _, _, _, _, h => ⟨rfl, h⟩
  | [], f :: fs, rs, rs', hrs, _, h => by
    obtain rfl : rs = listRows depth (f :: fs) ++ rs' := h
    exact absurd hrs (not_shallower_listRows depth f fs rs')
  | e :: es, [], rs, rs', _, hrs', h => by
    obtain rfl : listRows depth (e :: es) ++ rs = rs' := h
    exact absurd hrs' (not_shallower_listRows depth e es rs)
  | e :: es, f :: fs, rs, rs', hrs, hrs', h => by
    rw [listRows, listRows, List.append_assoc, List.append_assoc] at h
    obtain ⟨rfl, hrest⟩ := rows_cancel (hrs.listRows es) (hrs'.listRows fs) h
    obtain ⟨rfl, rfl⟩ := listRows_cancel hrs hrs' hrest
    exact ⟨rfl, rfl⟩

end

end Expr

/-! ## From texts to rows -/

/-- The first character of the entry of a mark. -/
def Node.Mark.initial : Mark → Char
  | call _ => 'C'
  | number _ => 'N'
  | string _ => 'S'

theorem Node.Mark.head?_entry (m : Mark) (s : Text) : (m.entry ++ s).head? = some m.initial := by
  cases m <;> rfl

/-- The entry of a mark is told from a text that begins with it and a line feed. -/
theorem Node.Mark.entry_cancel {m m' : Mark} (hm : m.Valid) (hm' : m'.Valid) {s t : Text}
    (h : m.entry ++ '\n' :: s = m'.entry ++ '\n' :: t) : m = m' := by
  have hinitial : m.initial = m'.initial := by
    have hhead := congrArg List.head? h
    rw [head?_entry, head?_entry] at hhead
    exact Option.some.inj hhead
  cases m with
  | call name =>
    cases m' with
    | call name' =>
      have hentry : "Call: ".toList ++ name ++ '\n' :: s =
          "Call: ".toList ++ name' ++ '\n' :: t := h
      rw [List.append_assoc, List.append_assoc] at hentry
      exact congrArg call (Text.run_cancel (p := Char.isAlpha) hm hm' (Text.head?_line rfl s)
        (Text.head?_line rfl t) (List.append_cancel_left hentry)).1
    | number digits => simp [initial] at hinitial
    | string value => simp [initial] at hinitial
  | number digits =>
    cases m' with
    | call name => simp [initial] at hinitial
    | number digits' =>
      have hentry : "Number: ".toList ++ digits ++ '\n' :: s =
          "Number: ".toList ++ digits' ++ '\n' :: t := h
      rw [List.append_assoc, List.append_assoc] at hentry
      exact congrArg number (Text.run_cancel (p := Char.isDigit) hm hm' (Text.head?_line rfl s)
        (Text.head?_line rfl t) (List.append_cancel_left hentry)).1
    | string value => simp [initial] at hinitial
  | string value =>
    cases m' with
    | call name => simp [initial] at hinitial
    | number digits => simp [initial] at hinitial
    | string value' =>
      have hentry : "String: \"".toList ++ value ++ ['"'] ++ '\n' :: s =
          "String: \"".toList ++ value' ++ ['"'] ++ '\n' :: t := h
      simp only [List.append_assoc] at hentry
      -- whatever stands in a string, it ends at the first double quote
      have hquote : ∀ {v : Text}, '"' ∉ v → ∀ c ∈ v, (c != '"') = true :=
        fun hv c hc => bne_iff_ne.mpr fun e => hv (e ▸ hc)
      exact congrArg string (Text.run_cancel (p := (· != '"')) (hquote hm) (hquote hm')
        (Text.head?_line rfl _) (Text.head?_line rfl _) (List.append_cancel_left hentry)).1

/-- **Rows are told by their text**, if a line feed stands behind each. -/
theorem Row.prefixFree :
    Text.PrefixFree (fun r : Row => r.mark.Valid) (fun r => r.text ++ ['\n']) := by
  rintro ⟨depth, mark⟩ ⟨depth', mark'⟩ hm hm' s t h
  simp only [text, List.append_assoc, List.singleton_append] at h
  have hblank : ∀ n, ∀ c ∈ List.replicate n ' ', (c == ' ') = true :=
    fun n c hc => beq_iff_eq.mpr (List.eq_of_mem_replicate hc)
  have hentry : ∀ (m : Mark) (s : Text), ∀ c ∈ (m.entry ++ s).head?, (c == ' ') = false := by
    intro m s c hc
    rw [Node.Mark.head?_entry] at hc
    cases hc
    cases m <;> rfl
  obtain ⟨hindent, hrest⟩ := Text.run_cancel (p := (· == ' ')) (hblank _) (hblank _)
    (hentry mark _) (hentry mark' _) h
  obtain rfl : depth = depth' := by
    have hlength := congrArg List.length hindent
    rw [List.length_replicate, List.length_replicate] at hlength
    omega
  obtain rfl := Node.Mark.entry_cancel hm hm' hrest
  rfl

/-! ## The outline -/

namespace Expr

mutual

theorem valid_rows : ∀ {e : Expr} (depth : Nat), e.Valid → ∀ r ∈ e.rows depth, r.mark.Valid
  | .number _, _, h => List.forall_mem_singleton.mpr h.2
  | .string _, _, h => List.forall_mem_singleton.mpr h
  | .call _ _, depth, h => List.forall_mem_cons.mpr ⟨h.1.2, valid_listRows (depth + 1) h.2⟩

theorem valid_listRows : ∀ {es : List Expr} (depth : Nat), AllValid es →
    ∀ r ∈ listRows depth es, r.mark.Valid
  | [], _, _ => List.forall_mem_nil _
  | _ :: _, depth, h =>
    List.forall_mem_append.mpr ⟨valid_rows depth h.1, valid_listRows depth h.2⟩

end

mutual

/-- The lines of the tree of an expression are its rows. -/
theorem map_line_toNode : ∀ (e : Expr) (above : List Node),
    (e.toNode.placesWithin above).map (Outline.line Outline.entry) =
      (e.rows above.length).map Row.text
  | .number _, _ => rfl
  | .string _, _ => rfl
  | .call name args, above => by
    rw [toNode, Node.placesWithin, List.map_cons, map_line_toNodes args, rows, List.map_cons]
    rfl

theorem map_line_toNodes : ∀ (es : List Expr) (above : List Node),
    (Node.allPlacesWithin above (toNodes es)).map (Outline.line Outline.entry) =
      (listRows above.length es).map Row.text
  | [], _ => rfl
  | e :: es, above => by
    rw [toNodes, Node.allPlacesWithin, List.map_append, map_line_toNode e, map_line_toNodes es,
      listRows, List.map_append]

end

end Expr

namespace Program

/-- **The outline of a program** is the text of its rows, below one for the program. -/
theorem outline_toNode (p : Program) :
    p.toNode.outline =
      .ok (Text.joinLines ("Program".toList :: (Expr.listRows 1 p).map Row.text)) := by
  have hwalked : Node.barrier? p.toNode.places = none := by
    rw [Node.places, Node.barrier?_eq_none_iff, ← Node.walkable_iff]
    exact Expr.allWalkable_toNodes p
  have hlines : p.toNode.places.map (Outline.line Outline.entry) =
      "Program".toList :: (Expr.listRows 1 p).map Row.text := by
    rw [Node.places, toNode, Node.placesWithin, List.map_cons, Expr.map_line_toNodes]
    rfl
  rw [Node.outline, Outline.print_eq, hwalked, hlines]

theorem outline_injective {p q : Program} (hp : p.Valid) (hq : q.Valid)
    (h : p.toNode.outline = q.toNode.outline) : p = q := by
  rw [outline_toNode, outline_toNode] at h
  have htext := congrArg (· ++ ['\n']) (Except.ok.inj h)
  simp only [Text.joinLines_cons_append, List.flatMap_cons, List.flatMap_map] at htext
  have hword : Text.BeginsNoWord (fun r : Row => r.mark.Valid) (fun r => r.text ++ ['\n']) [] := by
    simp [Text.BeginsNoWord]
  have hrows := Row.prefixFree.flatMap_append hword hword (Expr.valid_listRows 1 hp)
    (Expr.valid_listRows 1 hq) (by simpa using List.append_cancel_left htext)
  have hend : Expr.Shallower 1 [] := nofun
  exact (Expr.listRows_cancel hend hend (congrArg (· ++ []) hrows.1)).1

end Program

/-- **The outline of a text tells the program.** A text that can be parsed has an outline, and two
such texts are the same program if they have the same one. -/
theorem outline_tells_program {source source' : Text} {ts ts' : List Token} {p q : Program}
    (hscan : scan source = .ok ts) (hparse : parse ts = .ok p)
    (hscan' : scan source' = .ok ts') (hparse' : parse ts' = .ok q) :
    (∃ text, p.toNode.outline = .ok text) ∧ (p.toNode.outline = q.toNode.outline ↔ p = q) := by
  have hp := (Program.isSource_iff.mpr ⟨ts, hscan, hparse⟩).valid
  have hq := (Program.isSource_iff.mpr ⟨ts', hscan', hparse'⟩).valid
  exact ⟨⟨_, p.outline_toNode⟩, Program.outline_injective hp hq, fun h => h ▸ rfl⟩

/-- A string may go on with what looks like the row of a number. -/
theorem outline_tells_program_imitated :
    scan "(f \"a\n    Number: 1\")".toList =
      .ok [⟨.lparen, ['('], 0⟩, ⟨.name, ['f'], 1⟩, ⟨.string, "a\n    Number: 1".toList, 3⟩,
        ⟨.rparen, [')'], 20⟩] ∧
    scan "(f \"a\" 1)".toList =
      .ok [⟨.lparen, ['('], 0⟩, ⟨.name, ['f'], 1⟩, ⟨.string, ['a'], 3⟩, ⟨.number, ['1'], 7⟩,
        ⟨.rparen, [')'], 8⟩] ∧
    (Program.toNode [.call ['f'] [.string "a\n    Number: 1".toList]]).outline ≠
      (Program.toNode [.call ['f'] [.string ['a'], .number ['1']]]).outline := by
  have hscan : scan "(f \"a\n    Number: 1\")".toList =
      .ok [⟨.lparen, ['('], 0⟩, ⟨.name, ['f'], 1⟩, ⟨.string, "a\n    Number: 1".toList, 3⟩,
        ⟨.rparen, [')'], 20⟩] := by decide +kernel
  have hscan' : scan "(f \"a\" 1)".toList =
      .ok [⟨.lparen, ['('], 0⟩, ⟨.name, ['f'], 1⟩, ⟨.string, ['a'], 3⟩, ⟨.number, ['1'], 7⟩,
        ⟨.rparen, [')'], 8⟩] := by decide +kernel
  refine ⟨hscan, hscan', fun h => ?_⟩
  have hprogram := (outline_tells_program hscan rfl hscan' rfl).2.mp h
  have hargs := (Expr.call.inj (List.cons.inj hprogram).1).2
  exact absurd (congrArg List.length hargs) (by decide)

/-- No text is parsed as the second tree, where a double quote stands in a string. -/
example : (Node.program [.string ['a'], .string ['b']]).outline =
    (Node.program [.string "a\"\n  String: \"b".toList]).outline := by decide +kernel

end CallNotation
