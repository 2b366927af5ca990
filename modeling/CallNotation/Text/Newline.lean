import CallNotation.Text.Basic

/-!
# Line ends

A file may end its lines with CR LF, with a lone CR or with a lone LF. Reading a file makes each of
these a line feed.
-/

namespace CallNotation.Text

/-- The text with each CR LF, and each other CR, made a line feed. -/
def unifyNewlines : Text → Text
  | [] => []
  | '\r' :: '\n' :: t => '\n' :: unifyNewlines t
  | '\r' :: t => '\n' :: unifyNewlines t
  | c :: t => c :: unifyNewlines t

end CallNotation.Text
