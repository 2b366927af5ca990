import CallNotation.Proofs.Expr.Descent
import Mathlib.Data.Nat.Find

/-!
# Faults found by counting

Whether a token can stand where it does is told by the token in front of it and by the number of
calls open there, which is that of the opening parenthesis less that of the closing ones. So the
first fault is found without a stack of calls, in one pass that counts. `Token.Flaw` says which
tokens are refused by the count, and why, in the words of the fault. Behind tokens none of which is
refused, the parser has as many calls open as are counted, and waits for a name just if a
parenthesis was last.

Results:
* `Partial.refuses_iff_flaw`: where the parser has come to, it refuses what the count refuses.
* **`Parser.descend_counts`**: a descent comes to the first flaw, and without one to a program just
  if all parentheses are closed; it takes no token and asks none for its class where there is none.
-/

namespace CallNotation

namespace Token

/-- An opening parenthesis stands in front of the token with the index `k`. -/
def CalleeDue (ts : List Token) (k : Nat) : Prop :=
  0 < k ∧ (ts[k - 1]?).map Token.kind = some .lparen

/-- The number of calls open in front of the token with the index `k`. -/
def depthAt (ts : List Token) (k : Nat) : Int :=
  openings (ts.take k)

/-- The token as a fault names it: the class, and the value in quotes. -/
def found (t : Token) : String :=
  (match t.kind with
    | .lparen => "LPAREN"
    | .rparen => "RPAREN"
    | .number => "NUMBER"
    | .string => "STRING"
    | .name => "NAME") ++ " '" ++ String.ofList t.value ++ "'"

theorem mention_eq_found (t : Token) : t.mention = t.found := by
  obtain ⟨kind, value, position⟩ := t
  cases kind <;> rfl

/-- **The token `t` is flawed** where its index is `k`, and the fault that is. -/
inductive Flaw (limit : Int) (ts : List Token) (k : Nat) (t : Token) : Fault → Prop
  /-- An opening parenthesis is followed by something else than a name. -/
  | noCallee (hdue : CalleeDue ts k) (hkind : t.kind ≠ .name) :
      Flaw limit ts k t (.missingCallee t.found (some t.position))
  /-- A name follows no opening parenthesis. -/
  | strayName (hdue : ¬ CalleeDue ts k) (hkind : t.kind = .name) :
      Flaw limit ts k t (.unexpectedToken t (some "a number, string or '('"))
  /-- A parenthesis is closed where none is open. -/
  | strayClosing (hdue : ¬ CalleeDue ts k) (hkind : t.kind = .rparen) (hdepth : depthAt ts k = 0) :
      Flaw limit ts k t (.unexpectedToken t (some "a number, string or '('"))
  /-- A parenthesis is opened where as many are open as may be. -/
  | tooDeep (hdue : ¬ CalleeDue ts k) (hkind : t.kind = .lparen) (hdepth : limit ≤ depthAt ts k) :
      Flaw limit ts k t (.nestingTooDeep limit (some t.position))

/-- The token with the index `k` is flawed. -/
def FlawAt (limit : Int) (ts : List Token) (k : Nat) (f : Fault) : Prop :=
  ∃ t, ts[k]? = some t ∧ Flaw limit ts k t f

/-- The token with the index `k` is the first that is flawed. -/
def FirstFlaw (limit : Int) (ts : List Token) (k : Nat) (f : Fault) : Prop :=
  FlawAt limit ts k f ∧ ∀ j < k, ∀ g, ¬ FlawAt limit ts j g

/-- No token is flawed. -/
def Flawless (limit : Int) (ts : List Token) : Prop :=
  ∀ k f, ¬ FlawAt limit ts k f

variable {limit : Int} {ts : List Token} {k : Nat}

/-- Where a token is flawed, one is the first. -/
theorem flawless_or_firstFlaw (limit : Int) (ts : List Token) :
    Flawless limit ts ∨ ∃ k f, FirstFlaw limit ts k f := by
  classical
  by_cases h : ∃ k f, FlawAt limit ts k f
  · obtain ⟨f, hf⟩ := Nat.find_spec h
    exact .inr ⟨Nat.find h, f, hf, fun j hj g hg => Nat.find_min h hj ⟨g, hg⟩⟩
  · exact .inl fun k f hf => h ⟨k, f, hf⟩

/-- What has been read ends in an opening parenthesis. -/
theorem calleeDue_iff_getLast? (hk : k ≤ ts.length) :
    CalleeDue ts k ↔ ((ts.take k).getLast?).map Token.kind = some .lparen := by
  rw [CalleeDue, List.getLast?_take]
  cases k with
  | zero => simp
  | succ k =>
    have hlt : k < ts.length := hk
    simp [hlt]

end Token

namespace Partial

open Token (CalleeDue depthAt Flaw FlawAt)

variable {limit : Int} {base : Nat} {ts : List Token} {k : Nat}

/-! ## What the count says of the parser -/

/-- The name of a call is still to be read. -/
def AwaitsCallee : Partial → Prop
  | items _ _ => False
  | callee _ _ => True

theorem advance_concat {st st' : Partial} {t : Token} :
    st.advance limit base (ts ++ [t]) = .ok st' ↔
      ∃ st'', st.advance limit base ts = .ok st'' ∧ Takes limit base st'' t st' := by
  constructor
  · intro h
    cases hts : st.advance limit base ts with
    | error f =>
      obtain ⟨us, u, vs, st'', rfl, hus, hu⟩ := advance_error hts
      rw [List.append_assoc, advance_append hus, List.cons_append, advance_refused hu] at h
      cases h
    | ok st'' =>
      rw [advance_append hts] at h
      obtain ⟨st₃, ht, hnil⟩ := exists_takes h
      cases hnil
      exact ⟨st'', rfl, ht⟩
  · rintro ⟨st'', hts, ht⟩
    rw [advance_append hts, advance_cons ht]
    rfl

/-- The calls open are the parentheses open. -/
theorem depth_advance {st st' : Partial} (h : st.advance limit base ts = .ok st') :
    (st'.depth : Int) = st.depth + Token.openings ts := by
  induction ts generalizing st with
  | nil =>
    cases h
    simp [Token.openings]
  | cons t ts ih =>
    obtain ⟨st'', ht, hts⟩ := exists_takes h
    have hstep := ht.depth
    have hrest := ih hts
    have hopen := Token.openings_append [t] ts
    rw [List.singleton_append] at hopen
    omega

theorem Takes.awaitsCallee_iff {st st' : Partial} {t : Token} (h : Takes limit base st t st') :
    st'.AwaitsCallee ↔ t.kind = .lparen := by
  cases h <;> simp [AwaitsCallee]

/-- A name is due behind a parenthesis and nowhere else. -/
theorem awaitsCallee_iff {st : Partial} (h : start.advance limit base ts = .ok st) :
    st.AwaitsCallee ↔ ts.getLast?.map Token.kind = some .lparen := by
  rcases List.eq_nil_or_concat ts with rfl | ⟨us, t, rfl⟩
  · cases h
    simp [start, AwaitsCallee]
  · rw [List.concat_eq_append] at h ⊢
    obtain ⟨st', -, ht⟩ := advance_concat.mp h
    rw [ht.awaitsCallee_iff, List.getLast?_concat]
    simp

/-- **Where the parser has come to, it refuses what the count refuses.** -/
theorem refuses_iff_flaw {st : Partial} {t : Token} {f : Fault} (ht : ts[k]? = some t)
    (h : start.advance limit 0 (ts.take k) = .ok st) :
    Refuses limit 0 st t f ↔ Flaw limit ts k t f := by
  have hk : k < ts.length := (List.getElem?_eq_some_iff.mp ht).1
  have hdepth : (st.depth : Int) = depthAt ts k := by
    have := depth_advance h
    simpa [start, Partial.depth, depthAt] using this
  have hdue : st.AwaitsCallee ↔ CalleeDue ts k := by
    rw [awaitsCallee_iff h, Token.calleeDue_iff_getLast? hk.le]
  cases st with
  | items fs es =>
    have hnot : ¬ CalleeDue ts k := hdue.mpr
    have hopen : (fs.length : Int) = depthAt ts k := hdepth
    constructor
    · intro hr
      cases hr with
      | tooDeep hkind hlimit => exact .tooDeep hnot hkind (by omega)
      | unexpected hkind =>
        rcases hkind with hname | ⟨hclosing, rfl⟩
        · exact .strayName hnot hname
        · exact .strayClosing hnot hclosing hopen.symm
    · intro hf
      cases hf with
      | noCallee hd => exact absurd hd hnot
      | strayName _ hkind => exact .unexpected (.inl hkind)
      | strayClosing _ hkind hzero =>
        have hnil : fs = [] := List.eq_nil_of_length_eq_zero (by omega)
        exact .unexpected (.inr ⟨hkind, hnil⟩)
      | tooDeep _ hkind hlimit => exact .tooDeep hkind (by omega)
  | callee fs es =>
    have hd : CalleeDue ts k := hdue.mp trivial
    constructor
    · intro hr
      cases hr with
      | noCallee hkind =>
        rw [t.mention_eq_found]
        exact .noCallee hd hkind
    · intro hf
      cases hf with
      | noCallee _ hkind =>
        rw [← t.mention_eq_found]
        exact .noCallee hkind
      | strayName hnot => exact absurd hd hnot
      | strayClosing hnot => exact absurd hd hnot
      | tooDeep hnot => exact absurd hd hnot

/-- Tokens in front of the first flaw are all taken. -/
theorem exists_advance_take (h : ∀ j < k, ∀ f, ¬ FlawAt limit ts j f) :
    ∃ st, start.advance limit 0 (ts.take k) = .ok st := by
  induction k with
  | zero => exact ⟨start, rfl⟩
  | succ k ih =>
    obtain ⟨st, hst⟩ := ih fun j hj => h j (Nat.lt_succ_of_lt hj)
    rw [List.take_add_one]
    cases ht : ts[k]? with
    | none =>
      rw [Option.toList_none, List.append_nil]
      exact ⟨st, hst⟩
    | some t =>
      rw [Option.toList_some]
      rcases takes_or_refuses limit 0 st t with ⟨st', hst'⟩ | ⟨f, hf⟩
      · exact ⟨st', advance_concat.mpr ⟨st, hst, hst'⟩⟩
      · exact absurd ⟨t, ht, (refuses_iff_flaw ht hst).mp hf⟩ (h k (Nat.lt_succ_self k) f)

end Partial

open Token Partial

variable {limit : Int} {ts : List Token}

/-- The first flaw decides, whatever follows it. -/
theorem parseWithin_of_firstFlaw {k : Nat} {f : Fault} (h : FirstFlaw limit ts k f) :
    parseWithin limit ts = .error f := by
  obtain ⟨⟨t, ht, hflaw⟩, hbefore⟩ := h
  obtain ⟨st, hst⟩ := exists_advance_take hbefore
  have hlt : k < ts.length := (List.getElem?_eq_some_iff.mp ht).1
  have hget : ts[k] = t := (List.getElem?_eq_some_iff.mp ht).2
  have hsplit : ts = ts.take k ++ t :: ts.drop (k + 1) := by
    rw [← hget, ← List.drop_eq_getElem_cons hlt, List.take_append_drop]
  rw [parseWithin_eq_run, hsplit]
  exact run_append_refused hst ((refuses_iff_flaw ht hst).mpr hflaw) _

/-- Without a flaw, all depends on whether the parentheses are closed. -/
theorem parseWithin_of_flawless (h : Flawless limit ts) :
    (openings ts = 0 → ∃ p, parseWithin limit ts = .ok p) ∧
      (openings ts ≠ 0 → parseWithin limit ts = .error (.unexpectedEnd
        (if ts.getLast?.map Token.kind = some .lparen then "callee name" else "')'"))) := by
  obtain ⟨st, hst⟩ : ∃ st, start.advance limit 0 (ts.take ts.length) = .ok st :=
    exists_advance_take fun j _ => h j
  rw [List.take_length] at hst
  have hdepth : (st.depth : Int) = openings ts := by
    have := depth_advance hst
    simpa [start, Partial.depth] using this
  have hcallee := awaitsCallee_iff hst
  rw [parseWithin_eq_run, run, hst, ← hdepth]
  cases st with
  | items fs es =>
    rw [if_neg fun hlast => hcallee.mpr hlast]
    cases fs with
    | nil => exact ⟨fun _ => ⟨es, rfl⟩, fun hopen => absurd rfl hopen⟩
    | cons f fs =>
      refine ⟨fun hzero => ?_, fun _ => rfl⟩
      simp only [Partial.depth, List.length_cons] at hzero
      omega
  | callee fs es =>
    rw [if_pos (hcallee.mp trivial)]
    refine ⟨fun hzero => ?_, fun _ => rfl⟩
    simp only [Partial.depth] at hzero
    omega

/-- What an attempt of a new parser comes to. -/
theorem parseWithin_counts (limit : Int) (ts : List Token) :
    ((∃ p, parseWithin limit ts = .ok p) ↔ Flawless limit ts ∧ openings ts = 0) ∧
    ∀ f, parseWithin limit ts = .error f ↔
      (∃ k, FirstFlaw limit ts k f) ∨ Flawless limit ts ∧ openings ts ≠ 0 ∧
        f = .unexpectedEnd
          (if ts.getLast?.map Token.kind = some .lparen then "callee name" else "')'") := by
  rcases flawless_or_firstFlaw limit ts with hflawless | ⟨k, g, hk⟩
  · have hno (f : Fault) : ¬ ∃ k, FirstFlaw limit ts k f := fun ⟨k, hk⟩ => hflawless k f hk.1
    obtain ⟨hclosed, hopen⟩ := parseWithin_of_flawless hflawless
    by_cases hzero : openings ts = 0
    · obtain ⟨p, hp⟩ := hclosed hzero
      simp [hp, hflawless, hzero, hno]
    · simp [hopen hzero, hflawless, hzero, hno, eq_comm]
  · have hflawed : ¬ Flawless limit ts := fun h => h k g hk.1
    rw [parseWithin_of_firstFlaw hk]
    refine ⟨by simp [hflawed], fun f => ⟨?_, ?_⟩⟩
    · rintro ⟨⟩
      exact .inl ⟨k, hk⟩
    · rintro (⟨j, hj⟩ | ⟨h, -⟩)
      · rw [← parseWithin_of_firstFlaw hk, ← parseWithin_of_firstFlaw hj]
      · exact absurd h hflawed

/-- **A descent agrees with the count.** If a token is flawed, it stops with the fault of the first
that is. If none is, it reads a program just if as many parentheses are closed as are opened; else
it stops since the tokens end, without a place, and what it lacks is a name if the last token is an
opening parenthesis, and a closing one otherwise. Nothing else stops it: it takes no token behind
the last one, and asks no token for its class that is not there. The parser with a stack comes to
the same. -/
theorem Parser.descend_counts (tokens : List Token) (limit : Int) :
    ((∃ p, ({ tokens, limit } : Parser).descend.1 = .ok p) ↔
      Flawless limit tokens ∧ openings tokens = 0) ∧
    (∀ stop, ({ tokens, limit } : Parser).descend.1 = .error stop ↔
      ∃ f, stop = .fault f ∧
        ((∃ k, FirstFlaw limit tokens k f) ∨ Flawless limit tokens ∧ openings tokens ≠ 0 ∧
          f = .unexpectedEnd
            (if tokens.getLast?.map Token.kind = some .lparen then "callee name" else "')'"))) ∧
    ({ tokens, limit } : Parser).descend =
      (({ tokens, limit } : Parser).parse.1.mapError .fault,
        ({ tokens, limit } : Parser).parse.2) := by
  obtain ⟨hprogram, hfault⟩ := parseWithin_counts limit tokens
  have hdescend := Parser.descend_eq (p := { tokens, limit }) (Nat.zero_le _)
  have hresult : ({ tokens, limit } : Parser).descend.1 =
      (parseWithin limit tokens).mapError .fault := by
    rw [hdescend]
    rfl
  refine ⟨?_, fun stop => ?_, hdescend⟩
  · rw [← hprogram, hresult]
    cases parseWithin limit tokens <;> simp [Except.mapError]
  · simp only [← hfault, hresult]
    cases parseWithin limit tokens <;> simp [Except.mapError, eq_comm]

end CallNotation
