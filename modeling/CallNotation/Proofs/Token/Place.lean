import CallNotation.Fault
import CallNotation.Proofs.Token.Lexeme

/-!
# Tokens and faults in other places

Offsets stand in the tokens, and in the faults that are found with them. `shift` moves them on and
`unplaced` leaves them out; of a fault, both are `Fault.moved`. What a fault says does not depend on
where it is.

Results:
* `Fault.message_moved`, `Fault.hint_moved`: message and hint stay as they are.
* `Fault.SameButPlace.of_cause`: so do they where two faults have the same cause.
-/

namespace CallNotation

namespace Token

/-- The token at a later offset. -/
def shift (k : Nat) (t : Token) : Token :=
  { t with position := t.position + k }

/-- The token without its place, as a token. -/
def unplaced (t : Token) : Token :=
  { t with position := 0 }

@[simp] theorem lexeme_shift (k : Nat) (t : Token) : (t.shift k).lexeme = t.lexeme := rfl

@[simp] theorem lexeme_unplaced (t : Token) : t.unplaced.lexeme = t.lexeme := rfl

theorem unplaced_eq {t u : Token} (h : t.lexeme = u.lexeme) : t.unplaced = u.unplaced := by
  obtain ⟨kind, value, position⟩ := u
  cases h
  rfl

theorem mention_eq {t u : Token} (h : t.lexeme = u.lexeme) : t.mention = u.mention := by
  obtain ⟨kind, value, position⟩ := u
  cases h
  rfl

end Token

namespace Fault

/-- The fault with another place, and with the token it is about in another place. -/
def moved (place : Option Int → Option Int) (token : Token → Token) : Fault → Fault
  | custom family message position hint => custom family message (place position) hint
  | invalidCharacter char position => invalidCharacter char (place position)
  | unterminatedString position => unterminatedString (place position)
  | missingCallee found position => missingCallee found (place position)
  | unexpectedToken t expected => unexpectedToken (token t) expected
  | nestingTooDeep limit position => nestingTooDeep limit (place position)
  | f => f

/-- The fault at a later offset. -/
def shift (k : Nat) : Fault → Fault :=
  moved (Option.map (· + k)) (Token.shift k)

/-- The fault without its place, and without that of the token it is about. -/
def unplaced : Fault → Fault :=
  moved (fun _ => none) Token.unplaced

section

variable {place : Option Int → Option Int} {token : Token → Token}

theorem message_moved (htoken : ∀ t, (token t).lexeme = t.lexeme) (f : Fault) :
    (f.moved place token).message = f.message := by
  cases f with
  | unexpectedToken t expected =>
    have h := Token.mention_eq (htoken t)
    exact congrArg (fun mention => s!"unexpected token {mention}") h
  | _ => rfl

theorem hint_moved (f : Fault) : (f.moved place token).hint = f.hint := by
  cases f with
  | unexpectedToken t expected => cases expected <;> rfl
  | _ => rfl

end

/-- A fault at a later offset says so. -/
theorem position_shift (k : Nat) (f : Fault) :
    (f.shift k).position = f.position.map (· + (k : Int)) := by
  cases f <;> rfl

/-- **The faults are the same but for their places**, where `ts` and `us` are the tokens in which
they were found. -/
structure SameButPlace (ts us : List Token) (f g : Fault) : Prop where
  /-- Of the same kind, with the same data. -/
  cause : f.unplaced = g.unplaced
  message : f.message = g.message
  hint : f.hint = g.hint
  /-- None has a place, or each that of the token with the same index. -/
  place : f.position = none ∧ g.position = none ∨
    ∃ (i : Nat) (t u : Token), ts[i]? = some t ∧ us[i]? = some u ∧
      f.position = some t.position ∧ g.position = some u.position

theorem SameButPlace.of_cause {ts us : List Token} {f g : Fault} (h : f.unplaced = g.unplaced)
    (hplace : f.position = none ∧ g.position = none ∨
      ∃ (i : Nat) (t u : Token), ts[i]? = some t ∧ us[i]? = some u ∧
        f.position = some t.position ∧ g.position = some u.position) :
    SameButPlace ts us f g := by
  refine ⟨h, ?_, ?_, hplace⟩
  · have := congrArg Fault.message h
    unfold unplaced at this
    rwa [message_moved Token.lexeme_unplaced, message_moved Token.lexeme_unplaced] at this
  · have := congrArg Fault.hint h
    unfold unplaced at this
    rwa [hint_moved, hint_moved] at this

end Fault

end CallNotation
