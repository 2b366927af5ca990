import CallNotation.Token.Scan

/-!
# Token readers

A `Reader` holds one text and one cursor. Any number of token streams may be opened on it; they all
read at that cursor and move it, so together they give each token once. A stream that has come to
the end or met a fault stays finished, even if the text is replaced by a longer one later. The
cursor stays where it is when the text is replaced, which may leave it behind the end.
-/

namespace CallNotation

/-- A text, a cursor in it and the streams that read there. -/
structure Reader where
  /-- The text. -/
  source : Text
  /-- The offset of the next character. -/
  cursor : Nat := 0
  /-- For each stream, in the order of opening, whether it is finished. -/
  finished : List Bool := []

namespace Reader

/-- What a stream gives when asked for a token. -/
inductive Answer where
  /-- The next token. -/
  | token (token : Token)
  /-- Nothing more. -/
  | finished
  /-- A fault, after which nothing more comes. -/
  | fault (fault : Fault)

/-- The text from the cursor on. -/
def remaining (r : Reader) : Text :=
  r.source.drop r.cursor

/-- Opens one more stream. -/
def openStream (r : Reader) : Reader :=
  { r with finished := r.finished ++ [false] }

/-- Replaces the text. -/
def setSource (r : Reader) (source : Text) : Reader :=
  { r with source }

/-- The cursor at `stop` and stream `i` finished. -/
def finish (r : Reader) (i stop : Nat) : Reader :=
  { r with cursor := stop, finished := r.finished.set i true }

/-- Asks stream `i` for a token. -/
def next (r : Reader) (i : Nat) : Answer × Reader :=
  match r.finished[i]? with
  | some false =>
    match Token.pull r.cursor r.remaining with
    | .token token stop => (.token token, { r with cursor := stop })
    | .finished stop => (.finished, r.finish i stop)
    | .fault fault stop => (.fault fault, r.finish i stop)
  | _ => (.finished, r)

/-- Asks stream `i` for tokens until it is finished: the tokens, and the fault if it met one. -/
def drain (r : Reader) (i : Nat) : (List Token × Option Fault) × Reader :=
  match r.finished[i]? with
  | some false =>
    let d := Token.drain r.cursor r.remaining
    ((d.tokens, d.fault?), r.finish i d.stop)
  | _ => (([], none), r)

end Reader

end CallNotation
