import CallNotation.Text.Basic

/-!
# Expressions

A program is a list of expressions: numbers, strings, and calls of a name with expressions as
arguments.
-/

namespace CallNotation

/-- An expression of the language. -/
inductive Expr where
  /-- A number, as its digits. -/
  | number (digits : Text)
  /-- A string, without its quotes. -/
  | string (value : Text)
  /-- A call. -/
  | call (name : Text) (args : List Expr)

/-- A program: its top-level expressions in order. -/
abbrev Program := List Expr

end CallNotation
