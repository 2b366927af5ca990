import CallNotation.Expr.Basic
import CallNotation.Fault

/-!
# Reading tokens as a program

A call is `(`, a name, its arguments and `)`; numbers and strings stand for themselves. The parser
goes through the tokens once. It keeps the calls that are still open, innermost first, and for each
of them what had been read of the list around it. A call counts against the nesting limit as soon
as its parenthesis is read.

* `parseFrom` starts anywhere: within open calls, and with calls left open by an earlier attempt;
* `parse` reads a whole program under the usual limit;
* `Parser` keeps tokens, cursor and depth between attempts. An attempt that fails leaves the cursor
  and the depth where it stopped, and the next one starts a new program there.

`Descent` has a function for each rule of the grammar in place of the open calls. Out of scope is
the room that such a recursion takes: a nesting limit is kept to, however high it is set.
-/

namespace CallNotation

/-- A call that is still open. -/
structure Frame where
  /-- The name called. -/
  name : Text
  /-- What was read of the surrounding list before the call. -/
  before : List Expr

/-- Where a reading of tokens has stopped, and with what. -/
structure Parsed where
  /-- The program, or why there is none. -/
  result : Except Fault Program
  /-- The tokens that have not been taken. -/
  rest : List Token
  /-- The number of calls open. -/
  depth : Nat

/-- What an argument list waits for at its end. -/
def closingExpected : String := "')'"

/-- What an opening parenthesis waits for. -/
def calleeExpected : String := "callee name"

/-- What a list waits for at a token that starts no expression. -/
def expressionExpected : String := "a number, string or '('"

/-- Reads tokens with the calls `frames` open, where `items` has been read of the innermost list.
`depth` counts the calls open, `limit` is the greatest depth allowed. -/
def parseFrom (limit : Int) (depth : Nat) (frames : List Frame) (items : List Expr) :
    List Token → Parsed
  | [] =>
    match frames with
    | [] => ⟨.ok items, [], depth⟩
    | _ :: _ => ⟨.error (.unexpectedEnd closingExpected), [], depth⟩
  | ⟨.number, digits, _⟩ :: ts => parseFrom limit depth frames (items ++ [.number digits]) ts
  | ⟨.string, value, _⟩ :: ts => parseFrom limit depth frames (items ++ [.string value]) ts
  | ⟨.lparen, _, position⟩ :: ts =>
    if limit < depth + 1 then ⟨.error (.nestingTooDeep limit (some position)), ts, depth + 1⟩
    else
      match ts with
      | [] => ⟨.error (.unexpectedEnd calleeExpected), [], depth + 1⟩
      | ⟨.name, name, _⟩ :: ts => parseFrom limit (depth + 1) (⟨name, items⟩ :: frames) [] ts
      | t :: ts => ⟨.error (.missingCallee t.mention (some t.position)), t :: ts, depth + 1⟩
  | ⟨.rparen, value, position⟩ :: ts =>
    match frames with
    | [] =>
      ⟨.error (.unexpectedToken ⟨.rparen, value, position⟩ (some expressionExpected)),
        ⟨.rparen, value, position⟩ :: ts, depth⟩
    | f :: frames =>
      parseFrom limit (depth - 1) frames (f.before ++ [.call f.name items]) ts
  | ⟨.name, value, position⟩ :: ts =>
    ⟨.error (.unexpectedToken ⟨.name, value, position⟩ (some expressionExpected)),
      ⟨.name, value, position⟩ :: ts, depth⟩

/-- The deepest nesting of calls that a program may have. -/
def nestingLimit : Int := 256

/-- Reads tokens as a program whose calls nest at most `limit` deep. -/
def parseWithin (limit : Int) (ts : List Token) : Except Fault Program :=
  (parseFrom limit 0 [] [] ts).result

/-- Reads tokens as a program. -/
def parse (ts : List Token) : Except Fault Program :=
  parseWithin nestingLimit ts

/-! ## Repeated attempts -/

/-- Tokens, a cursor in them, and the calls that earlier attempts have left open. -/
structure Parser where
  /-- The tokens. -/
  tokens : List Token
  /-- The number of tokens taken. -/
  cursor : Nat := 0
  /-- The number of calls open. -/
  depth : Nat := 0
  /-- The greatest depth allowed. -/
  limit : Int := nestingLimit

namespace Parser

/-- Adds tokens at the end. -/
def push (p : Parser) (ts : List Token) : Parser :=
  { p with tokens := p.tokens ++ ts }

/-- Reads a program from the tokens behind the cursor. -/
def parse (p : Parser) : Except Fault Program × Parser :=
  let parsed := parseFrom p.limit p.depth [] [] (p.tokens.drop p.cursor)
  (parsed.result,
    { p with cursor := p.tokens.length - parsed.rest.length, depth := parsed.depth })

end Parser

end CallNotation
