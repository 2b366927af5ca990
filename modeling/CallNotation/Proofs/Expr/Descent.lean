import CallNotation.Expr.Descent
import CallNotation.Proofs.Expr.Attempts

/-!
# Descent and stack

A reading by descent has the calls that are open in its recursion, `parseFrom` has them on a stack.
Whatever stack is around, both come to the same (`Agrees`): where a rule comes to a value, reading
on with the value on the stack is what is left of the attempt, and where it stops, the attempt stops
with the same fault at the same token. So no rule takes a token where there is none or goes by the
class of one that is not there.

Results:
* `Descent.expression_agrees`, `Descent.call_agrees`, `Descent.arguments_agrees`: the rules, with
  any calls open around them.
* **`Parser.descend_eq`**: a parser that descends does what a parser with a stack does.
-/

namespace CallNotation

/-! ## One token -/

namespace Partial.Takes

variable {limit : Int} {base : Nat} {fs : List Frame} {es : List Expr} {t : Token}

theorem of_number (h : t.kind = .number) :
    Takes limit base (items fs es) t (items fs (es ++ [.number t.value])) := by
  obtain ⟨kind, value, position⟩ := t
  obtain rfl : kind = .number := h
  exact .number

theorem of_string (h : t.kind = .string) :
    Takes limit base (items fs es) t (items fs (es ++ [.string t.value])) := by
  obtain ⟨kind, value, position⟩ := t
  obtain rfl : kind = .string := h
  exact .string

theorem of_lparen (h : t.kind = .lparen) (hlimit : (base + fs.length : Nat) + 1 ≤ limit) :
    Takes limit base (items fs es) t (callee fs es) := by
  obtain ⟨kind, value, position⟩ := t
  obtain rfl : kind = .lparen := h
  exact .lparen hlimit

theorem of_name (h : t.kind = .name) :
    Takes limit base (callee fs es) t (items (⟨t.value, es⟩ :: fs) []) := by
  obtain ⟨kind, value, position⟩ := t
  obtain rfl : kind = .name := h
  exact .name

theorem of_rparen {frame : Frame} (h : t.kind = .rparen) :
    Takes limit base (items (frame :: fs) es) t
      (items fs (frame.before ++ [.call frame.name es])) := by
  obtain ⟨kind, value, position⟩ := t
  obtain rfl : kind = .rparen := h
  exact .rparen

end Partial.Takes

namespace Descent

open Partial

variable {limit : Int} {base : Nat} {ts : List Token} {m m' : Position} {t : Token}

/-! ## Looking at tokens -/

theorem peek?_eq (ts : List Token) (m : Position) : peek? ts m = ts[m.cursor]? := by
  unfold peek? atEnd
  split
  · rename_i hend
    exact (List.getElem?_eq_none (of_decide_eq_true hend)).symm
  · rfl

theorem atEnd_iff : atEnd ts m = true ↔ ts.length ≤ m.cursor :=
  decide_eq_true_iff

theorem check_iff {kind : Token.Kind} :
    check ts kind m = true ↔ ∃ t, ts[m.cursor]? = some t ∧ t.kind = kind := by
  unfold check
  rw [peek?_eq]
  cases ts[m.cursor]? <;> simp

theorem next_le (ht : ts[m.cursor]? = some t) : m.next.cursor ≤ ts.length :=
  (List.getElem?_eq_some_iff.mp ht).1

theorem drop_eq (ht : ts[m.cursor]? = some t) :
    ts.drop m.cursor = t :: ts.drop m.next.cursor := by
  obtain ⟨hlt, rfl⟩ := List.getElem?_eq_some_iff.mp ht
  exact List.drop_eq_getElem_cons hlt

theorem advance_of (ht : ts[m.cursor]? = some t) : advance ts m = .ok t m.next := by
  rw [advance, ht]

theorem taking_of {α : Type} (a : α) (ht : ts[m.cursor]? = some t) :
    (taking ts a m).1 = .ok a m.next := by
  unfold taking
  split
  · rename_i hadvance
    cases (advance_of ht).symm.trans hadvance
  · rename_i hadvance
    cases (advance_of ht).symm.trans hadvance
    rfl

/-! ## Rules and stacks -/

/-- What an attempt comes to from a position on. -/
def onward (limit : Int) (base : Nat) (ts : List Token) (st : Partial) (m : Position) : Parsed :=
  st.attempt limit base (ts.drop m.cursor)

/-- **A rule agrees with an attempt**, which comes to `p`: it comes to a value such that `rest`
holds of the value and of the position that is come to, or to the fault of `p` at the token of
`p`. -/
inductive Agrees (ts : List Token) {α : Type} (p : Parsed) (rest : α → Position → Prop) :
    Outcome α → Prop
  /-- There is a value. -/
  | value {a : α} {m : Position} (hm : m.cursor ≤ ts.length) (h : rest a m) :
      Agrees ts p rest (.ok a m)
  /-- The tokens are at fault. -/
  | fault {f : Fault} {m : Position} (hm : m.cursor ≤ ts.length)
      (h : p = ⟨.error f, ts.drop m.cursor, m.depth⟩) : Agrees ts p rest (.error (.fault f) m)

theorem onward_takes {st st' : Partial} (ht : ts[m.cursor]? = some t)
    (h : Takes limit base st t st') :
    onward limit base ts st m = onward limit base ts st' m.next := by
  rw [onward, drop_eq ht, attempt_cons h]
  rfl

section

variable {fs : List Frame} {es : List Expr} {f : Fault}

/-- A token that is refused is not taken. -/
theorem onward_refused (ht : ts[m.cursor]? = some t)
    (h : Refuses limit base (items fs es) t f) (hkind : t.kind ≠ .lparen)
    (hd : base + fs.length = m.depth) :
    onward limit base ts (items fs es) m = ⟨.error f, ts.drop m.cursor, m.depth⟩ := by
  rw [onward, drop_eq ht, attempt_refused h, ← hd]
  obtain ⟨kind, value, position⟩ := t
  cases kind with
  | lparen => exact absurd rfl hkind
  | _ => rfl

/-- A parenthesis is taken, even if it opens one call too many. -/
theorem onward_refused_lparen (ht : ts[m.cursor]? = some t)
    (h : Refuses limit base (items fs es) t f) (hkind : t.kind = .lparen)
    (hd : base + fs.length = m.depth) :
    onward limit base ts (items fs es) m =
      ⟨.error f, ts.drop m.next.opened.cursor, m.next.opened.depth⟩ := by
  rw [onward, drop_eq ht, attempt_refused h]
  obtain ⟨kind, value, position⟩ := t
  obtain rfl : kind = .lparen := hkind
  simp only [refused, hd]
  rfl

theorem onward_refused_callee (ht : ts[m.cursor]? = some t)
    (h : Refuses limit base (callee fs es) t f) (hd : base + (fs.length + 1) = m.depth) :
    onward limit base ts (callee fs es) m = ⟨.error f, ts.drop m.cursor, m.depth⟩ := by
  rw [onward, drop_eq ht, attempt_refused h, ← hd]
  rfl

/-- Where the tokens end, an attempt stops. -/
theorem onward_end {st : Partial} (hend : ts.length ≤ m.cursor) (hd : base + st.depth = m.depth) :
    onward limit base ts st m = ⟨st.finish, ts.drop m.cursor, m.depth⟩ := by
  rw [onward, List.drop_eq_nil_of_le hend, ← hd]
  rfl

/-- What a rule for one expression is to come to. -/
abbrev ReadsOne (limit : Int) (base : Nat) (ts : List Token) (fs : List Frame) (es : List Expr)
    (m : Position) : Outcome Expr → Prop :=
  Agrees ts (onward limit base ts (items fs es) m) fun x m' =>
    m'.depth = m.depth ∧
      onward limit base ts (items fs es) m = onward limit base ts (items fs (es ++ [x])) m'

mutual

/-- **An expression** is read as an attempt reads it, which puts it on the stack. -/
theorem expression_agrees (m : Position) (fs : List Frame) (es : List Expr)
    (hd : base + fs.length = m.depth) (hlt : m.cursor < ts.length)
    (hclosing : check ts .rparen m = true → fs = []) :
    ReadsOne limit base ts fs es m (expression limit ts m).1 := by
  obtain ⟨t, ht⟩ : ∃ t, ts[m.cursor]? = some t := ⟨_, List.getElem?_eq_getElem hlt⟩
  rw [expression]
  simp only [peek?_eq, ht]
  cases hkind : t.kind with
  | number =>
    simp only [taking_of _ ht]
    exact .value (next_le ht) ⟨rfl, onward_takes ht (.of_number hkind)⟩
  | string =>
    simp only [taking_of _ ht]
    exact .value (next_le ht) ⟨rfl, onward_takes ht (.of_string hkind)⟩
  | lparen => exact call_agrees m fs es hd ht hkind
  | rparen =>
    have hrefuses : Refuses limit base (items fs es) t _ :=
      .unexpected (.inr ⟨hkind, hclosing (check_iff.mpr ⟨t, ht, hkind⟩)⟩)
    exact .fault (Nat.le_of_lt hlt) (onward_refused ht hrefuses (by rw [hkind]; decide) hd)
  | name =>
    have hrefuses : Refuses limit base (items fs es) t _ := .unexpected (.inl hkind)
    exact .fault (Nat.le_of_lt hlt) (onward_refused ht hrefuses (by rw [hkind]; decide) hd)
termination_by (ts.length - m.cursor, 1)

/-- **A call** too. -/
theorem call_agrees (m : Position) (fs : List Frame) (es : List Expr)
    (hd : base + fs.length = m.depth) {t : Token} (ht : ts[m.cursor]? = some t)
    (hkind : t.kind = .lparen) :
    ReadsOne limit base ts fs es m (call limit ts m).1 := by
  rw [call]
  split
  · rename_i hadvance
    cases (advance_of ht).symm.trans hadvance
  rename_i hadvance
  cases (advance_of ht).symm.trans hadvance
  have hdepth : base + (fs.length + 1) = m.next.opened.depth := congrArg (· + 1) hd
  split
  · rename_i hlimit
    have hrefuses : Refuses limit base (items fs es) t _ := .tooDeep hkind (by omega)
    exact .fault (next_le ht) (onward_refused_lparen ht hrefuses hkind hd)
  rename_i hlimit
  -- the parenthesis is taken, and the attempt goes on in front of the name
  have hopen : onward limit base ts (items fs es) m =
      onward limit base ts (callee fs es) m.next.opened :=
    onward_takes ht (.of_lparen hkind (by omega))
  split
  · rename_i hend
    rw [peek?_eq] at hend
    refine .fault (next_le ht) ?_
    rw [hopen, onward_end (List.getElem?_eq_none_iff.mp hend) hdepth]
    rfl
  rename_i u hu
  rw [peek?_eq] at hu
  split
  · rename_i hname
    refine .fault (next_le ht) ?_
    rw [hopen, onward_refused_callee hu (.noCallee hname) hdepth]
  rename_i hname
  split
  · rename_i hadvance
    cases (advance_of hu).symm.trans hadvance
  rename_i hadvance
  cases (advance_of hu).symm.trans hadvance
  have hcallee : onward limit base ts (callee fs es) m.next.opened =
      onward limit base ts (items (⟨u.value, es⟩ :: fs) []) m.next.opened.next :=
    onward_takes hu (.of_name (Decidable.not_not.mp hname))
  have harguments := arguments_agrees m.next.opened.next ⟨u.value, es⟩ fs [] hdepth (next_le hu)
  rw [← hcallee, ← hopen] at harguments
  split
  · rename_i hargs
    rw [hargs] at harguments
    cases harguments with
    | fault hm h => exact .fault hm h
  rename_i args m₃ _ hargs
  rw [hargs] at harguments
  cases harguments with
  | value hm h =>
    obtain ⟨hsame, hcheck, hrest⟩ := h
    obtain ⟨v, hv, hclosing⟩ := check_iff.mp hcheck
    split
    · rename_i hadvance
      cases (advance_of hv).symm.trans hadvance
    rename_i hadvance
    cases (advance_of hv).symm.trans hadvance
    refine .value (next_le hv) ⟨?_, ?_⟩
    · change m₃.depth - 1 = m.depth
      rw [hsame]
      rfl
    · rw [hrest]
      exact onward_takes hv (.of_rparen hclosing)
termination_by (ts.length - m.cursor, 0)
decreasing_by
  have hlt := next_le ht
  simp only [Position.next_cursor] at hlt
  exact Prod.Lex.left _ _ (by simp only [Position.next_cursor, Position.opened_cursor]; omega)

/-- **The arguments of a call** are read up to a closing parenthesis. -/
theorem arguments_agrees (m : Position) (frame : Frame) (fs : List Frame) (es : List Expr)
    (hd : base + (fs.length + 1) = m.depth) (hle : m.cursor ≤ ts.length) :
    Agrees ts (onward limit base ts (items (frame :: fs) es) m)
      (fun args m' => m'.depth = m.depth ∧ check ts .rparen m' = true ∧
        onward limit base ts (items (frame :: fs) es) m =
          onward limit base ts (items (frame :: fs) args) m')
      (arguments limit ts m es).1 := by
  rw [arguments]
  split
  · rename_i hcheck
    exact .value hle ⟨rfl, hcheck, rfl⟩
  rename_i hcheck
  split
  · rename_i hend
    refine .fault hle ?_
    rw [onward_end (atEnd_iff.mp hend) hd]
    rfl
  rename_i hend
  have hlt : m.cursor < ts.length := Nat.not_le.mp (mt atEnd_iff.mpr hend)
  have hone := expression_agrees m (frame :: fs) es hd hlt fun h => absurd h hcheck
  split
  · rename_i hx
    rw [hx] at hone
    cases hone with
    | fault hm h => exact .fault hm h
  rename_i x m' hprogress hx
  rw [hx] at hone
  cases hone with
  | value hm h =>
    obtain ⟨hsame, hrest⟩ := h
    have hprogress : m.cursor < m'.cursor := hprogress x m' rfl
    have hmore := arguments_agrees m' frame fs (es ++ [x]) (hd.trans hsame.symm) hm
    rw [hsame, ← hrest] at hmore
    exact hmore
termination_by (ts.length - m.cursor, 2)

end

end

/-- **A program** is read up to the end of the tokens. -/
theorem program_agrees (m : Position) (es : List Expr) (hd : base = m.depth)
    (hle : m.cursor ≤ ts.length) :
    Agrees ts (onward limit base ts (items [] es) m)
      (fun p m' => onward limit base ts (items [] es) m = ⟨.ok p, ts.drop m'.cursor, m'.depth⟩)
      (program limit ts m es) := by
  rw [program]
  split
  · rename_i hend
    exact .value hle (onward_end (atEnd_iff.mp hend) hd)
  rename_i hend
  have hlt : m.cursor < ts.length := Nat.not_le.mp (mt atEnd_iff.mpr hend)
  have hone : ReadsOne limit base ts [] es m (expression limit ts m).1 :=
    expression_agrees m [] es hd hlt fun _ => rfl
  split
  · rename_i hx
    rw [hx] at hone
    cases hone with
    | fault hm h => exact .fault hm h
  rename_i x m' hprogress hx
  rw [hx] at hone
  cases hone with
  | value hm h =>
    obtain ⟨hsame, hrest⟩ := h
    have hprogress : m.cursor < m'.cursor := hprogress x m' rfl
    have hmore := program_agrees m' (es ++ [x]) (hd.trans hsame.symm) hm
    rw [← hrest] at hmore
    exact hmore
termination_by ts.length - m.cursor

end Descent

/-- **A parser that descends does what a parser with a stack does**: it comes to the same program or
fault, and leaves the cursor and the open calls alike. -/
theorem Parser.descend_eq {p : Parser} (h : p.cursor ≤ p.tokens.length) :
    p.descend = (p.parse.1.mapError .fault, p.parse.2) := by
  have hagrees : Descent.Agrees p.tokens _ _
      (Descent.program p.limit p.tokens ⟨p.cursor, p.depth⟩ []) :=
    Descent.program_agrees _ [] rfl h
  have hcursor (n : Nat) (hn : n ≤ p.tokens.length) :
      p.tokens.length - (p.tokens.drop n).length = n := by
    rw [List.length_drop]
    omega
  rw [p.parse_eq, descend]
  cases hprogram : Descent.program p.limit p.tokens ⟨p.cursor, p.depth⟩ [] with
  | ok program m =>
    rw [hprogram] at hagrees
    cases hagrees with
    | value hm h =>
      rw [show p.attempt = _ from h]
      simp only [hcursor _ hm]
      rfl
  | error stop m =>
    rw [hprogram] at hagrees
    cases hagrees with
    | fault hm h =>
      rw [show p.attempt = _ from h]
      simp only [hcursor _ hm]
      rfl

end CallNotation
