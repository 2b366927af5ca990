import CallNotation.Text.Basic

/-!
# Terminal style codes

A style code is an escape character and `[`, then digits, semicolons and question marks, then an
ASCII letter. What the program prints goes out without the style codes in it; files keep them.
-/

namespace CallNotation.Text

/-- The number of characters of a style code after its escape character, if `t` continues one. -/
def styleCodeLength? (t : Text) : Option Nat :=
  match t with
  | '[' :: t =>
    let arguments := t.takeWhile fun c => c.isDigit || c == ';' || c == '?'
    match t.drop arguments.length with
    | c :: _ => if c.isAlpha then some (arguments.length + 2) else none
    | [] => none
  | _ => none

/-- Drops `skip` characters, and the style codes from what follows. -/
def unstyledFrom : Nat → Text → Text
  | _, [] => []
  | skip + 1, _ :: t => unstyledFrom skip t
  | 0, c :: t =>
    if c = '\x1b' then
      match styleCodeLength? t with
      | some n => unstyledFrom n t
      | none => c :: unstyledFrom 0 t
    else c :: unstyledFrom 0 t

/-- The text without its style codes. -/
def unstyled (t : Text) : Text :=
  unstyledFrom 0 t

example : unstyled "a\x1b[1;31mb\x1b[c".toList = ['a', 'b'] := by decide

end CallNotation.Text
