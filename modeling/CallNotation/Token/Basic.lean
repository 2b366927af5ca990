import CallNotation.Text.Quoted

/-!
# Tokens

A program is read as parentheses, numbers, strings and names. A token keeps the offset of its
first character; nothing but error messages depends on it, so it may be any integer.
-/

namespace CallNotation

/-- The lexical class of a token. -/
inductive Token.Kind where
  /-- An opening parenthesis. -/
  | lparen
  /-- A closing parenthesis. -/
  | rparen
  /-- A run of ASCII digits. -/
  | number
  /-- A text in double quotes. -/
  | string
  /-- A run of ASCII letters. -/
  | name
deriving DecidableEq

/-- A lexical unit. -/
structure Token where
  /-- The class. -/
  kind : Token.Kind
  /-- The characters of the token, those of a string without its quotes. -/
  value : Text
  /-- The offset of the first character. -/
  position : Int := 0
deriving DecidableEq

namespace Token

/-- The name of a class, as shown in dumps and messages. -/
def Kind.label : Kind → String
  | .lparen => "LPAREN"
  | .rparen => "RPAREN"
  | .number => "NUMBER"
  | .string => "STRING"
  | .name => "NAME"

/-- The token in one line: class, quoted value and offset. -/
def describe (t : Token) : Text :=
  "Token(".toList ++ t.kind.label.toList ++ ", ".toList ++ Text.quoted t.value ++ ", ".toList
    ++ Text.ofInt t.position ++ ")".toList

/-- The token as a line of a token dump: class, in a column of its own, and quoted value. -/
def dumpLine (t : Token) : Text :=
  Text.padRight 8 t.kind.label.toList ++ ' ' :: Text.quoted t.value

/-- The token as a message about it shows it. -/
def mention (t : Token) : String :=
  s!"{t.kind.label} '{String.ofList t.value}'"

end Token

end CallNotation
