import CallNotation.Fault
import CallNotation.Text.Blank

/-!
# Reading a text as tokens

Blank characters separate tokens and mean nothing else. A run of digits or of letters is taken as
far as it goes, a string up to the next double quote, whatever stands between. The first character
that starts no token ends the reading.

* `pieceAt` reads the token that starts at a character that is not blank;
* `pull` passes over blanks and reads one token;
* `drain` reads tokens to the end of the text or the first fault, and keeps both;
* `scan` is `drain` for callers who want all tokens or the fault.
-/

namespace CallNotation

namespace Token

/-- What a text starts with: class and value of a token, and the characters it takes up. -/
structure Piece where
  /-- The class. -/
  kind : Kind
  /-- The value. -/
  value : Text
  /-- The number of characters taken up, the quotes of a string included. -/
  width : Nat

/-- The token that starts with the character `c`, at offset `pos` and followed by `t`. -/
def pieceAt (pos : Nat) (c : Char) (t : Text) : Except Fault Piece :=
  if c = '(' then .ok ⟨.lparen, [c], 1⟩
  else if c = ')' then .ok ⟨.rparen, [c], 1⟩
  else if c.isDigit then
    let digits := c :: t.takeWhile Char.isDigit
    .ok ⟨.number, digits, digits.length⟩
  else if c = '"' then
    let body := t.takeWhile (· ≠ '"')
    if body.length < t.length then .ok ⟨.string, body, body.length + 2⟩
    else .error (.unterminatedString (some pos))
  else if c.isAlpha then
    let letters := c :: t.takeWhile Char.isAlpha
    .ok ⟨.name, letters, letters.length⟩
  else .error (.invalidCharacter (String.singleton c) (some pos))

/-- What one attempt to read a token comes to, and the offset it leaves the reader at. -/
inductive Pull where
  /-- A token, and the offset behind it. -/
  | token (token : Token) (stop : Nat)
  /-- Only blanks were left; the offset is that of the end of the text. -/
  | finished (stop : Nat)
  /-- A fault; the offset is that of the character at fault. -/
  | fault (fault : Fault) (stop : Nat)

/-- Reads one token from a text whose first character has the offset `pos`. -/
def pull (pos : Nat) : Text → Pull
  | [] => .finished pos
  | c :: t =>
    if isBlank c then pull (pos + 1) t
    else
      match pieceAt pos c t with
      | .ok piece => .token ⟨piece.kind, piece.value, pos⟩ (pos + piece.width)
      | .error fault => .fault fault pos

/-- The tokens of a text up to its end or to the first fault. -/
structure Drained where
  /-- The tokens in front of the end or the fault. -/
  tokens : List Token
  /-- The fault, if there is one. -/
  fault? : Option Fault
  /-- The offset of the end of the text, or of the character at fault. -/
  stop : Nat

/-- The same reading with one more token in front. -/
def Drained.cons (t : Token) (d : Drained) : Drained :=
  { d with tokens := t :: d.tokens }

/-- Reads tokens from a text whose first character has the offset `pos`; the first `skip`
characters belong to the token read last. -/
def drainFrom : Nat → Nat → Text → Drained
  | _, pos, [] => ⟨[], none, pos⟩
  | skip + 1, pos, _ :: t => drainFrom skip (pos + 1) t
  | 0, pos, c :: t =>
    if isBlank c then drainFrom 0 (pos + 1) t
    else
      match pieceAt pos c t with
      | .ok piece =>
        (drainFrom (piece.width - 1) (pos + 1) t).cons ⟨piece.kind, piece.value, pos⟩
      | .error fault => ⟨[], some fault, pos⟩

/-- Reads all tokens of a text whose first character has the offset `pos`. -/
def drain (pos : Nat) (t : Text) : Drained :=
  drainFrom 0 pos t

end Token

/-- The tokens of a program text. -/
def scan (source : Text) : Except Fault (List Token) :=
  match Token.drain 0 source with
  | ⟨tokens, none, _⟩ => .ok tokens
  | ⟨_, some fault, _⟩ => .error fault

end CallNotation
