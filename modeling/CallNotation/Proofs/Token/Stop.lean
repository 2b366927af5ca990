import CallNotation.Proofs.Token.Layout
import CallNotation.Proofs.Token.Sharing

/-!
# Where scanning stops

A text has tokens up to the first character that is not blank and starts no token. In front of that
character nothing depends on it or on what follows: runs of digits and of letters end there, strings
are closed, and the text in front of it has the same tokens when it stands alone. So the place at
which scanning fails is told by the beginnings of the text that have tokens, and there is just one.

Results:
* `scan_eq_error_iff_stuck`: scanning fails behind a beginning that has tokens, where it is stuck.
* `Reader.nexts_of_drain`: a stream that is asked for one token after the other gives what it gives
  when it is asked for all.
* **`scan_fails`**: where scanning fails, why, and what a stream gives before it does.
-/

namespace CallNotation

namespace Token

/-- The tokens of a reading end in front of its end. -/
theorem Reading.stop_le {pos : Nat} {s : Text} {d : Drained} (h : Reading pos s d) :
    ∀ t ∈ d.tokens, t.stop ≤ d.stop := by
  induction h with
  | finished _ => exact fun t ht => absurd ht List.not_mem_nil
  | stuck _ _ => exact fun t ht => absurd ht List.not_mem_nil
  | @lexeme pos g l s d _ _ _ h ih =>
    refine List.forall_mem_cons.mpr ⟨?_, ih⟩
    have hle := h.increasing.1
    simp only [stop_token, Drained.cons]
    omega

/-- A character that starts no token goes on with no run. -/
theorem Stuck.apart {pos : Nat} {c : Char} {t : Text} {f : Fault} (h : Stuck pos c t f)
    (a : Text) : Text.Apart a (c :: t) := by
  cases h with
  | unterminated _ => exact Text.apart_cons rfl rfl a t
  | invalid _ h =>
    simp only [opensLexeme, Bool.or_eq_false_iff] at h
    obtain ⟨⟨⟨-, hdigit⟩, -⟩, halpha⟩ := h
    exact Text.apart_cons hdigit halpha a t

/-- **A text is read up to a fault** iff it has tokens up to a character at which the scanner is
stuck. -/
theorem drain_eq_fault_iff {s : Text} {ts : List Token} {f : Fault} {n : Nat} :
    drain 0 s = ⟨ts, some f, n⟩ ↔
      ∃ a c t, s = a ++ c :: t ∧ n = a.length ∧ scan a = .ok ts ∧ Stuck n c t f := by
  constructor
  · intro hd
    have hread := reading_iff.mpr hd
    obtain ⟨a, b, hs, hstop, -, hfault⟩ := hread.exists_stop
    obtain ⟨c, t, rfl, hstuck⟩ : ∃ c t, b = c :: t ∧ Stuck n c t f := hfault f rfl
    have hstop : n = 0 + a.length := hstop
    -- no token reaches behind the character, so the text can be cut in front of it
    obtain ⟨-, us, vs, htokens, ha, hb⟩ :=
      hread.cut hs hstop.ge fun u hu => .inl (hstop ▸ hread.stop_le u hu)
    rw [← hstop, drain_stuck hstuck] at hb
    obtain rfl : [] = vs := congrArg Drained.tokens hb
    obtain rfl : ts = us := by rw [← List.append_nil us]; exact htokens
    exact ⟨a, c, t, hs, hstop.trans (Nat.zero_add _), scan_eq_ok_iff.mpr ⟨_, ha⟩, hstuck⟩
  · rintro ⟨a, c, t, rfl, rfl, ha, hstuck⟩
    obtain ⟨m, hm⟩ := scan_eq_ok_iff.mp ha
    have h := (reading_iff.mpr hm).append rfl (hstuck.apart a)
    rw [Nat.zero_add, drain_stuck hstuck] at h
    rw [h, Drained.prepend, List.append_nil]

end Token

open Token

/-- **Scanning fails** behind a beginning of the text that has tokens, where it is stuck. -/
theorem scan_eq_error_iff_stuck {source : Text} {f : Fault} :
    scan source = .error f ↔
      ∃ p c ts, source[p]? = some c ∧ scan (source.take p) = .ok ts ∧
        Stuck p c (source.drop (p + 1)) f := by
  rw [scan_eq_error_iff]
  constructor
  · rintro ⟨ts, n, hd⟩
    obtain ⟨a, c, t, rfl, rfl, ha, hstuck⟩ := drain_eq_fault_iff.mp hd
    exact ⟨a.length, c, ts, by simp, by rwa [List.take_left], by simpa using hstuck⟩
  · rintro ⟨p, c, ts, hc, hts, hstuck⟩
    obtain ⟨hp, rfl⟩ := List.getElem?_eq_some_iff.mp hc
    refine ⟨ts, p, drain_eq_fault_iff.mpr ⟨source.take p, _, _, ?_, ?_, hts, hstuck⟩⟩
    · rw [← List.drop_eq_getElem_cons hp, List.take_append_drop]
    · rw [List.length_take_of_le hp.le]

/-! ## One token at a time -/

namespace Reader

/-- Asks stream `i` for a token `n` times. -/
def nexts (i : Nat) : Nat → Reader → List Answer × Reader
  | 0, r => ([], r)
  | n + 1, r =>
    let asked := nexts i n (r.next i).2
    ((r.next i).1 :: asked.1, asked.2)

/-- The answer of a stream that has nothing more to give. -/
def Answer.last : Option Fault → Answer
  | none => finished
  | some f => fault f

/-- A stream that has given a token may be asked for more. -/
theorem finished_of_next {r r' : Reader} {i : Nat} {t : Token} (h : r.next i = (.token t, r')) :
    r'.finished = r.finished := by
  unfold next at h
  split at h
  · split at h
    · cases h
      rfl
    · cases h
    · cases h
  · cases h

/-- **A stream gives one after the other what it gives when asked for all.** -/
theorem nexts_of_drain {i : Nat} {ts : List Token} {f : Option Fault} {r r' : Reader}
    (hlive : r.finished[i]? = some false) (h : r.drain i = ((ts, f), r')) :
    r.nexts i (ts.length + 1) = (ts.map .token ++ [.last f], r') := by
  induction ts generalizing r with
  | nil =>
    rw [drain_eq_next hlive] at h
    simp only [List.length_nil, nexts]
    split at h
    · cases h
    · rename_i hnext
      cases h
      rw [hnext]
      rfl
    · rename_i hnext
      cases h
      rw [hnext]
      rfl
  | cons t ts ih =>
    rw [drain_eq_next hlive] at h
    -- it gives a token first, so it is not the answers that end a stream
    split at h
    · rename_i u r'' hnext
      simp only [Prod.mk.injEq, List.cons.injEq] at h
      obtain ⟨⟨⟨rfl, hts⟩, hf⟩, hr⟩ := h
      have hrest := ih (r := r'') (finished_of_next hnext ▸ hlive)
        (Prod.ext (Prod.ext hts hf) hr)
      rw [List.length_cons, nexts, hnext]
      simp only [hrest]
      rfl
    · cases h
    · cases h

end Reader

/-- **Where scanning fails, and why.** At an offset the fault is an invalid character just if the
character there is neither blank nor one that a token starts with, and an unterminated string just
if it is a quote behind which there is none; in either case, just if the text in front of it has
tokens. There are no other faults, and a stream gives the tokens of the text in front before it
fails, and leaves the cursor there. -/
theorem scan_fails (source : Text) :
    (∀ (char : String) (p : Nat), scan source = .error (.invalidCharacter char (some p)) ↔
      ∃ c, source[p]? = some c ∧ char = String.singleton c ∧
        (isBlank c = false ∧ opensLexeme c = false) ∧ ∃ ts, scan (source.take p) = .ok ts) ∧
    (∀ p : Nat, scan source = .error (.unterminatedString (some p)) ↔
      source[p]? = some '"' ∧ '"' ∉ source.drop (p + 1) ∧
        ∃ ts, scan (source.take p) = .ok ts) ∧
    ∀ f, scan source = .error f → ∃ (p : Nat) (ts : List Token),
      ((∃ char, f = .invalidCharacter char (some p)) ∨ f = .unterminatedString (some p)) ∧
      scan (source.take p) = .ok ts ∧
      ({ source } : Reader).openStream.nexts 0 (ts.length + 1) =
        (ts.map .token ++ [.fault f], { source, cursor := p, finished := [true] }) := by
  refine ⟨fun char p => ?_, fun p => ?_, fun f h => ?_⟩
  · rw [scan_eq_error_iff_stuck]
    constructor
    · rintro ⟨q, c, ts, hc, hts, hstuck⟩
      cases hstuck with
      | invalid hb h => exact ⟨c, hc, rfl, ⟨hb, h⟩, ts, hts⟩
    · rintro ⟨c, hc, rfl, ⟨hb, h⟩, ts, hts⟩
      exact ⟨p, c, ts, hc, hts, .invalid hb h⟩
  · rw [scan_eq_error_iff_stuck]
    constructor
    · rintro ⟨q, c, ts, hc, hts, hstuck⟩
      cases hstuck with
      | unterminated h => exact ⟨hc, h, ts, hts⟩
    · rintro ⟨hc, h, ts, hts⟩
      exact ⟨p, '"', ts, hc, hts, .unterminated h⟩
  · obtain ⟨ts, p, hd⟩ := scan_eq_error_iff.mp h
    obtain ⟨a, c, t, rfl, rfl, ha, hstuck⟩ := drain_eq_fault_iff.mp hd
    refine ⟨a.length, ts, ?_, by rwa [List.take_left], ?_⟩
    · cases hstuck with
      | unterminated _ => exact .inr rfl
      | invalid _ _ => exact .inl ⟨_, rfl⟩
    · have hlive : ({ source := a ++ c :: t } : Reader).openStream.finished[0]? = some false := rfl
      have hdrain := Reader.drain_live hlive
      rw [show ({ source := a ++ c :: t } : Reader).openStream.rest = _ from hd] at hdrain
      exact Reader.nexts_of_drain hlive hdrain

end CallNotation
