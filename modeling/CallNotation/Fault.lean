import CallNotation.Token.Basic

/-!
# Faults

Why a program, or a tree handed to the library, is refused. A fault is its cause with the data of
that cause; message, offset and hint are functions of it. `Fault.describe` puts the three together:
the offset, if there is one, goes in front of the message, and the hint, if there is one that is
not empty, goes on a line of its own.
-/

namespace CallNotation

/-- The part of the compiler that a fault comes from. -/
inductive Fault.Family where
  /-- No part in particular. -/
  | any
  /-- Reading a text as tokens. -/
  | lexical
  /-- Reading tokens as a program. -/
  | structural
deriving DecidableEq

/-- A reason to refuse the input. -/
inductive Fault where
  /-- A refusal in the caller's own words. -/
  | custom (family : Fault.Family) (message : String) (position : Option Int)
      (hint : Option String)
  /-- A character that no token holds outside a string. -/
  | invalidCharacter (char : String) (position : Option Int)
  /-- An opening double quote without a closing one. -/
  | unterminatedString (position : Option Int)
  /-- An opening parenthesis that no name follows. -/
  | missingCallee (found : String) (position : Option Int)
  /-- A token that starts no expression. -/
  | unexpectedToken (token : Token) (expected : Option String)
  /-- The tokens end inside a call. -/
  | unexpectedEnd (expected : String)
  /-- A call within more calls than the limit allows. -/
  | nestingTooDeep (limit : Int) (position : Option Int)
  /-- A tree node that the walk does not know. -/
  | unwalkable (kind : String)
  /-- A tree node that has no rendering. -/
  | unrenderable (kind : String)
deriving DecidableEq

namespace Fault

/-- What is wrong. -/
def message : Fault → String
  | custom _ message _ _ => message
  | invalidCharacter char _ => s!"invalid character '{char}'"
  | unterminatedString _ => "unterminated string literal"
  | missingCallee _ _ => "expected callee name"
  | unexpectedToken token _ => s!"unexpected token {token.mention}"
  | unexpectedEnd expected => s!"unexpected end of input, expected {expected}"
  | nestingTooDeep limit _ => s!"calls nested deeper than {limit} levels"
  | unwalkable kind => s!"cannot traverse node of kind '{kind}'"
  | unrenderable kind => s!"cannot generate code for node of kind '{kind}'"

/-- Where it is wrong. -/
def position : Fault → Option Int
  | custom _ _ position _ => position
  | invalidCharacter _ position => position
  | unterminatedString position => position
  | missingCallee _ position => position
  | unexpectedToken token _ => some token.position
  | unexpectedEnd _ => none
  | nestingTooDeep _ position => position
  | unwalkable _ => none
  | unrenderable _ => none

/-- What to do about it. -/
def hint : Fault → Option String
  | custom _ _ _ hint => hint
  | invalidCharacter _ _ => none
  | unterminatedString _ => some "add closing '\"' to complete the string"
  | missingCallee found _ =>
    some s!"found {found}; a call must start with '(' followed by a name"
  | unexpectedToken _ none => none
  | unexpectedToken _ (some expected) =>
    if expected.isEmpty then none else some s!"expected {expected}"
  | unexpectedEnd _ => some "check that every '(' has a matching ')'"
  | nestingTooDeep _ _ => some "split the expression into smaller calls"
  | unwalkable _ => none
  | unrenderable _ => none

/-- The part of the compiler that the fault comes from. -/
def family : Fault → Family
  | custom family _ _ _ => family
  | invalidCharacter _ _ => .lexical
  | unterminatedString _ => .lexical
  | missingCallee _ _ => .structural
  | unexpectedToken _ _ => .structural
  | unexpectedEnd _ => .structural
  | nestingTooDeep _ _ => .structural
  | unwalkable _ => .any
  | unrenderable _ => .any

/-- The line that names the offset and what is wrong. -/
def headline (f : Fault) : String :=
  match f.position with
  | some position => s!"offset {position}: error: {f.message}"
  | none => s!"error: {f.message}"

/-- The whole message. -/
def describe (f : Fault) : String :=
  match f.hint with
  | some hint => if hint.isEmpty then f.headline else s!"{f.headline}\nhint: {hint}"
  | none => f.headline

end Fault

end CallNotation
