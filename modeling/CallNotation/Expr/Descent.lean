import CallNotation.Expr.Parse

/-!
# Reading tokens by descent

The grammar has a rule for programs, one for expressions and one for calls; here each of them is a
function that goes through the tokens by an index. A token is looked at (`peek?`), and there may be
none; or it is taken (`advance`), which moves the index on. To take a token behind the last one, or
to go by the class of a token that is not there, is not a fault of the tokens but of the reading
itself, and ends it with a `Stop` of its own.

Each rule that succeeds has taken a token, which its result tells, so the recursion ends.
`parseFrom` does the same with a stack in place of the recursion; no limit is set here to how deep
a recursion may go besides that of the calls.
-/

namespace CallNotation

/-- Why a reading stops without a result. -/
inductive Stop where
  /-- The tokens are at fault. -/
  | fault (fault : Fault)
  /-- A token is taken behind the last one. -/
  | takenPastEnd
  /-- The class of a token that is not there is asked for. -/
  | absentToken
deriving DecidableEq

/-- How far a reading has come. -/
structure Position where
  /-- The index of the next token. -/
  cursor : Nat
  /-- The number of calls open. -/
  depth : Nat
deriving DecidableEq

namespace Position

/-- Behind the next token. -/
def next (m : Position) : Position :=
  { m with cursor := m.cursor + 1 }

/-- Within one more call. -/
def opened (m : Position) : Position :=
  { m with depth := m.depth + 1 }

/-- Within one call less. -/
def closed (m : Position) : Position :=
  { m with depth := m.depth - 1 }

@[simp] theorem next_cursor (m : Position) : m.next.cursor = m.cursor + 1 := rfl

@[simp] theorem opened_cursor (m : Position) : m.opened.cursor = m.cursor := rfl

@[simp] theorem closed_cursor (m : Position) : m.closed.cursor = m.cursor := rfl

end Position

namespace Descent

/-- What a part of a reading comes to: a value or the reason why there is none, and how far it has
come. -/
abbrev Outcome (α : Type) :=
  EStateM.Result Stop Position α

variable (limit : Int) (ts : List Token)

/-- No token is left. -/
def atEnd (m : Position) : Bool :=
  ts.length ≤ m.cursor

/-- The next token, if one is left. -/
def peek? (m : Position) : Option Token :=
  if atEnd ts m then none else ts[m.cursor]?

/-- The next token is there and of the class. -/
def check (kind : Token.Kind) (m : Position) : Bool :=
  match peek? ts m with
  | none => false
  | some t => t.kind = kind

/-- Takes the next token. -/
def advance (m : Position) : Outcome Token :=
  match ts[m.cursor]? with
  | none => .error .takenPastEnd m
  | some t => .ok t m.next

theorem advance_eq_ok {m m' : Position} {t : Token} (h : advance ts m = .ok t m') :
    ts[m.cursor]? = some t ∧ m' = m.next := by
  unfold advance at h
  split at h
  · cases h
  · rename_i ht
    cases h
    exact ⟨ht, rfl⟩

/-- What a rule comes to at a position: it has taken a token if there is a value. -/
abbrev Advanced (α : Type) (m : Position) :=
  { r : Outcome α // ∀ a m', r = .ok a m' → m.cursor < m'.cursor }

/-- A value for which the next token is taken. -/
def taking {α : Type} (a : α) (m : Position) : Advanced α m :=
  match h : advance ts m with
  | .error stop m' => ⟨.error stop m', nofun⟩
  | .ok _ m' => ⟨.ok a m', by
      rintro b _ ⟨⟩
      rw [(advance_eq_ok ts h).2]
      exact Nat.lt_succ_self _⟩

/-- Once the index moves on, fewer tokens are left. -/
theorem left_lt {m m' : Position} (hend : ¬ atEnd ts m) (hlt : m.cursor < m'.cursor) :
    ts.length - m'.cursor < ts.length - m.cursor := by
  simp only [atEnd, decide_eq_true_eq] at hend
  omega

mutual

/-- Reads an expression: a number, a string or a call. -/
def expression (m : Position) : Advanced Expr m :=
  match peek? ts m with
  | none => ⟨.error .absentToken m, nofun⟩
  | some t =>
    match t.kind with
    | .number => taking ts (.number t.value) m
    | .string => taking ts (.string t.value) m
    | .lparen => call m
    | .rparen => ⟨.error (.fault (.unexpectedToken t (some expressionExpected))) m, nofun⟩
    | .name => ⟨.error (.fault (.unexpectedToken t (some expressionExpected))) m, nofun⟩
termination_by (ts.length - m.cursor, 1)

/-- Reads a call: a parenthesis, a name, expressions and a parenthesis. -/
def call (m : Position) : Advanced Expr m :=
  match hopening : advance ts m with
  | .error stop m₁ => ⟨.error stop m₁, nofun⟩
  | .ok opening m₁ =>
    if limit < m₁.opened.depth then
      ⟨.error (.fault (.nestingTooDeep limit (some opening.position))) m₁.opened, nofun⟩
    else
      match peek? ts m₁.opened with
      | none => ⟨.error (.fault (.unexpectedEnd calleeExpected)) m₁.opened, nofun⟩
      | some callee =>
        if callee.kind ≠ .name then
          ⟨.error (.fault (.missingCallee callee.mention (some callee.position))) m₁.opened, nofun⟩
        else
          match hcallee : advance ts m₁.opened with
          | .error stop m₂ => ⟨.error stop m₂, nofun⟩
          | .ok _ m₂ =>
            match arguments m₂ [] with
            | ⟨.error stop m₃, _⟩ => ⟨.error stop m₃, nofun⟩
            | ⟨.ok args m₃, hargs⟩ =>
              match hclosing : advance ts m₃ with
              | .error stop m₄ => ⟨.error stop m₄, nofun⟩
              | .ok _ m₄ => ⟨.ok (.call callee.value args) m₄.closed, by
                  rintro _ _ ⟨⟩
                  have hle : m₂.cursor ≤ m₃.cursor := hargs args m₃ rfl
                  rw [(advance_eq_ok ts hcallee).2, (advance_eq_ok ts hopening).2] at hle
                  rw [(advance_eq_ok ts hclosing).2]
                  simp only [Position.next_cursor, Position.opened_cursor,
                    Position.closed_cursor] at hle ⊢
                  omega⟩
termination_by (ts.length - m.cursor, 0)
decreasing_by
  have hlt := (List.getElem?_eq_some_iff.mp (advance_eq_ok ts hopening).1).1
  rw [(advance_eq_ok ts hcallee).2, (advance_eq_ok ts hopening).2]
  exact Prod.Lex.left _ _ (by simp only [Position.next_cursor, Position.opened_cursor]; omega)

/-- Reads the arguments of a call up to its closing parenthesis, behind `items`. -/
def arguments (m : Position) (items : List Expr) :
    { r : Outcome (List Expr) // ∀ args m', r = .ok args m' → m.cursor ≤ m'.cursor } :=
  if check ts .rparen m then ⟨.ok items m, by rintro _ _ ⟨⟩; exact Nat.le_refl _⟩
  else if hend : atEnd ts m then ⟨.error (.fault (.unexpectedEnd closingExpected)) m, nofun⟩
  else
    match expression m with
    | ⟨.error stop m', _⟩ => ⟨.error stop m', nofun⟩
    | ⟨.ok x m', hx⟩ =>
      have hlt : m.cursor < m'.cursor := hx x m' rfl
      ⟨(arguments m' (items ++ [x])).1, fun args m'' h =>
        Nat.le_trans (Nat.le_of_lt hlt) ((arguments m' (items ++ [x])).2 args m'' h)⟩
termination_by (ts.length - m.cursor, 2)
decreasing_by
  · exact Prod.Lex.right _ (by decide)
  · exact Prod.Lex.left _ _ (left_lt ts hend (hx x m' rfl))

end

/-- Reads expressions up to the end of the tokens, behind `items`. -/
def program (m : Position) (items : List Expr) : Outcome Program :=
  if hend : atEnd ts m then .ok items m
  else
    match expression limit ts m with
    | ⟨.error stop m', _⟩ => .error stop m'
    | ⟨.ok x m', hx⟩ =>
      have := left_lt ts hend (hx x m' rfl)
      program m' (items ++ [x])
termination_by ts.length - m.cursor

end Descent

/-- Reads a program by descent from the tokens behind the cursor. -/
def Parser.descend (p : Parser) : Except Stop Program × Parser :=
  match Descent.program p.limit p.tokens ⟨p.cursor, p.depth⟩ [] with
  | .ok program m => (.ok program, { p with cursor := m.cursor, depth := m.depth })
  | .error stop m => (.error stop, { p with cursor := m.cursor, depth := m.depth })

end CallNotation
