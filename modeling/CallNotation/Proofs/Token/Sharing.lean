import CallNotation.Proofs.Token.Reading
import CallNotation.Token.Reader

/-!
# Streams that share a cursor

A reader's streams all read at its cursor, in any order and as far as they are asked. What matters
is `Reader.rest`, the reading of the text from the cursor on: every request takes tokens from the
front of it (`Reader.Moves`), and the stream asked is finished where nothing is left to take.

* `Reader.Answered`: what a request can come to, whether it asks for one token or for all.
* `Reader.drain_eq_next`: asking for all is asking for one after the other.
* `Reader.Run`: requests in any order, with streams opened and, if it is `editable`, the text
  replaced on the way; a stretch in which the text stays the same is a run that is not.

Result:
* **`Reader.run_delivers`**: in every stretch of a run the streams together are given what one
  stream alone would be given, each token once; over the whole run the cursor does not go back; and
  a stream that has ended stays so.
-/

namespace CallNotation

namespace Reader

/-! ## What is left to read -/

/-- The reading of the text from the cursor on. -/
def rest (r : Reader) : Token.Drained :=
  Token.drain r.cursor r.remaining

/-- What a stream is given that is alone on the text from the cursor on: the tokens, and the fault
if there is one. -/
def alone (r : Reader) : List Token × Option Fault :=
  (({ source := r.remaining } : Reader).openStream.drain 0).1

/-- What is left to read is what a stream alone is given, but for the offset of the cursor. -/
theorem rest_eq_alone (r : Reader) :
    r.rest.tokens = r.alone.1.map (Token.shift r.cursor) ∧
      r.rest.fault? = r.alone.2.map (Fault.shift r.cursor) := by
  have h := Token.drain_shift 0 r.cursor r.remaining
  rw [Nat.zero_add] at h
  rw [rest, h]
  exact ⟨rfl, rfl⟩

theorem reading_rest (r : Reader) : Token.Reading r.cursor r.remaining r.rest :=
  Token.reading_iff.mpr rfl

/-- Behind a part of what remains, the other part remains. -/
theorem remaining_of_append {r : Reader} {a b : Text} (h : r.remaining = a ++ b) (r' : Reader)
    (hsource : r'.source = r.source) (hcursor : r'.cursor = r.cursor + a.length) :
    r'.remaining = b := by
  rw [remaining, hsource, hcursor, ← List.drop_drop]
  exact (congrArg (List.drop a.length) h).trans List.drop_left

/-- **The tokens `ts` have been taken** from the front of what was left. -/
structure Moves (r r' : Reader) (ts : List Token) : Prop where
  source_eq : r'.source = r.source
  cursor_le : r.cursor ≤ r'.cursor
  rest_eq : r.rest = r'.rest.prepend ts
  /-- The cursor is behind what was taken. -/
  taken : ∀ t ∈ ts, t.position < r'.cursor

theorem Moves.refl (r : Reader) : Moves r r [] :=
  ⟨rfl, Nat.le_refl _, rfl, fun _ ht => absurd ht List.not_mem_nil⟩

theorem Moves.trans {r r' r'' : Reader} {ts us : List Token} (h : Moves r r' ts)
    (h' : Moves r' r'' us) : Moves r r'' (ts ++ us) := by
  refine ⟨h'.source_eq.trans h.source_eq, Nat.le_trans h.cursor_le h'.cursor_le, ?_, fun t ht => ?_⟩
  · rw [h.rest_eq, h'.rest_eq, Token.Drained.prepend, Token.Drained.prepend,
      Token.Drained.prepend, List.append_assoc]
  · rcases List.mem_append.mp ht with ht | ht
    · have hlt := h.taken t ht
      have hle := h'.cursor_le
      omega
    · exact h'.taken t ht

/-- Tokens that are taken stand in order, and none in front of the cursor. -/
theorem Moves.increasing {r r' : Reader} {ts : List Token} (h : Moves r r' ts) :
    (ts.Pairwise fun t u => t.position < u.position) ∧ ∀ t ∈ ts, (r.cursor : Int) ≤ t.position := by
  obtain ⟨-, hpair, hbounds⟩ := r.reading_rest.increasing
  rw [h.rest_eq, Token.Drained.prepend] at hpair hbounds
  exact ⟨(List.pairwise_append.mp hpair).1,
    fun t ht => (hbounds t (List.mem_append_left _ ht)).1⟩

/-- Where the reading stops, nothing more is taken. -/
theorem rest_finish (r : Reader) (i : Nat) :
    (r.finish i r.rest.stop).rest = ⟨[], r.rest.fault?, r.rest.stop⟩ := by
  obtain ⟨a, b, hab, hstop, hdrain, -⟩ := r.reading_rest.exists_stop
  rw [rest, remaining_of_append hab (r.finish i r.rest.stop) rfl hstop]
  exact hdrain

theorem moves_finish (r : Reader) (i : Nat) :
    Moves r (r.finish i r.rest.stop) r.rest.tokens := by
  obtain ⟨hle, -, hbounds⟩ := r.reading_rest.increasing
  refine ⟨rfl, hle, ?_, fun t ht => (hbounds t ht).2⟩
  rw [rest_finish, Token.Drained.prepend, List.append_nil]

/-! ## Requests -/

/-- How a request for tokens has ended. -/
inductive Ending where
  /-- The stream may be asked for more. -/
  | live
  /-- The stream has ended. -/
  | finished
  /-- The stream has ended with a fault. -/
  | fault (fault : Fault)
deriving DecidableEq

/-- The ending of a stream that has met a fault, or none. -/
def Ending.ofFault? : Option Fault → Ending
  | none => .finished
  | some f => .fault f

theorem Ending.ofFault?_ne_live (f : Option Fault) : ofFault? f ≠ .live := by
  cases f <;> rintro ⟨⟩

theorem Ending.ofFault?_eq_finished_iff {f : Option Fault} : ofFault? f = .finished ↔ f = none := by
  cases f <;> simp [ofFault?]

theorem Ending.ofFault?_eq_fault_iff {f : Option Fault} {g : Fault} :
    ofFault? f = .fault g ↔ f = some g := by
  cases f <;> simp [ofFault?]

/-- What a request for tokens has given. -/
structure Reply where
  /-- The stream that was asked. -/
  stream : Nat
  /-- The tokens. -/
  tokens : List Token
  /-- Whether that was all, and why. -/
  ending : Ending
  /-- The cursor behind the request. -/
  cursor : Nat
deriving DecidableEq

/-- The tokens that an answer gives. -/
def Answer.tokens : Answer → List Token
  | token t => [t]
  | _ => []

/-- How an answer ends a request. -/
def Answer.ending : Answer → Ending
  | token _ => .live
  | finished => .finished
  | fault f => .fault f

/-- A request to a stream: for one token, or for all. -/
inductive Answers (r : Reader) : Reply → Reader → Prop
  | next {i : Nat} (hi : i < r.finished.length) :
      Answers r ⟨i, (r.next i).1.tokens, (r.next i).1.ending, (r.next i).2.cursor⟩ (r.next i).2
  | drain {i : Nat} (hi : i < r.finished.length) :
      Answers r ⟨i, (r.drain i).1.1, .ofFault? (r.drain i).1.2, (r.drain i).2.cursor⟩
        (r.drain i).2

/-- **What a request can come to**: the stream is over, or it is given a token, or all that is left,
and then it is over. -/
inductive Answered (r : Reader) : Reply → Reader → Prop
  | ended {i : Nat} (h : r.finished[i]? = some true) :
      Answered r ⟨i, [], .finished, r.cursor⟩ r
  | token {i : Nat} {t : Token} {stop : Nat} (h : r.finished[i]? = some false)
      (hm : Moves r { r with cursor := stop } [t]) :
      Answered r ⟨i, [t], .live, stop⟩ { r with cursor := stop }
  | last {i : Nat} (h : r.finished[i]? = some false) :
      Answered r ⟨i, r.rest.tokens, .ofFault? r.rest.fault?, r.rest.stop⟩
        (r.finish i r.rest.stop)

/-- A stream that is not over is given all that is left. -/
theorem drain_live {r : Reader} {i : Nat} (h : r.finished[i]? = some false) :
    r.drain i = ((r.rest.tokens, r.rest.fault?), r.finish i r.rest.stop) := by
  rw [drain, h]
  rfl

/-- Asking for one token. -/
theorem answered_next {r : Reader} {i : Nat} (h : r.finished[i]? = some false) :
    Answered r ⟨i, (r.next i).1.tokens, (r.next i).1.ending, (r.next i).2.cursor⟩
      (r.next i).2 := by
  have hlast := Answered.last h
  have hread := r.reading_rest
  rw [next, h]
  generalize hd : r.rest = d at hlast hread
  generalize hs : r.remaining = s at hread ⊢
  generalize hc : r.cursor = pos at hread ⊢
  cases hread with
  | finished hg =>
    have hpull := Token.pull_blank hg pos []
    rw [List.append_nil] at hpull
    simp only [hpull, Token.pull]
    exact hlast
  | stuck hg hf =>
    simp only [Token.pull_blank hg, Token.pull_stuck hf]
    exact hlast
  | @lexeme _ g l s d hg hv hls hread =>
    simp only [Token.pull_blank hg, Token.pull_text hv hls]
    refine .token h ⟨rfl, ?_, ?_, ?_⟩
    · simp only [hc]
      omega
    · have happ : r.remaining = (g ++ l.text) ++ s := by rw [hs, List.append_assoc]
      have hremaining := remaining_of_append happ
        { r with cursor := pos + g.length + l.text.length } rfl
        (by simp only [hc, List.length_append, Nat.add_assoc])
      rw [hd, rest, hremaining, hread.drain_eq]
      rfl
    · have hpos := List.length_pos_iff.mpr (Lexeme.text_ne_nil hv)
      rintro t ht
      rw [List.mem_singleton.mp ht, Lexeme.token_position]
      simp only
      omega

theorem Answers.answered {r r' : Reader} {e : Reply} (h : Answers r e r') : Answered r e r' := by
  have hstate : ∀ i, i < r.finished.length →
      r.finished[i]? = some true ∨ r.finished[i]? = some false := fun i hi => by
    rw [List.getElem?_eq_getElem hi]
    cases r.finished[i] <;> simp
  cases h with
  | next hi =>
    rcases hstate _ hi with h | h
    · rw [Reader.next, h]
      exact .ended h
    · exact answered_next h
  | drain hi =>
    rcases hstate _ hi with h | h
    · rw [Reader.drain, h]
      exact .ended h
    · rw [drain_live h]
      exact .last h

/-- **Asking for all tokens is asking for one after the other** until the stream is over. -/
theorem drain_eq_next {r : Reader} {i : Nat} (h : r.finished[i]? = some false) :
    r.drain i =
      match r.next i with
      | (.token t, r') => ((t :: (r'.drain i).1.1, (r'.drain i).1.2), (r'.drain i).2)
      | (.finished, r') => (([], none), r')
      | (.fault f, r') => (([], some f), r') := by
  have hnext := answered_next h
  rw [drain_live h]
  generalize r.next i = answer at hnext ⊢
  obtain ⟨a, r'⟩ := answer
  generalize he : (⟨i, a.tokens, a.ending, r'.cursor⟩ : Reply) = e at hnext
  cases hnext with
  | ended hover =>
    obtain ⟨rfl, -⟩ := Reply.mk.inj he
    rw [h] at hover
    cases hover
  | @token j t stop hj hm =>
    obtain ⟨rfl, htokens, hending, -⟩ := Reply.mk.inj he
    cases a with
    | token u =>
      obtain rfl := (List.cons.inj htokens).1
      simp only [drain_live (r := { r with cursor := stop }) hj, hm.rest_eq]
      rfl
    | finished => cases hending
    | fault f => cases hending
  | last _ =>
    obtain ⟨rfl, htokens, hending, -⟩ := Reply.mk.inj he
    cases a with
    | token t => exact absurd hending.symm (Ending.ofFault?_ne_live _)
    | finished =>
      simp only [← htokens, Ending.ofFault?_eq_finished_iff.mp hending.symm]
      rfl
    | fault f =>
      simp only [← htokens, Ending.ofFault?_eq_fault_iff.mp hending.symm]
      rfl

theorem Answered.moves {r r' : Reader} {e : Reply} (h : Answered r e r') :
    Moves r r' e.tokens := by
  cases h with
  | ended _ => exact .refl r
  | token _ hm => exact hm
  | last _ => exact moves_finish r _

/-- A stream is over if it was or if the request has ended it. -/
theorem Answered.finished_iff {r r' : Reader} {e : Reply} (h : Answered r e r') (i : Nat) :
    r'.finished[i]? = some true ↔
      r.finished[i]? = some true ∨ e.stream = i ∧ e.ending ≠ .live := by
  cases h with
  | @ended j h =>
    constructor
    · exact .inl
    · rintro (h' | ⟨rfl, -⟩)
      · exact h'
      · exact h
  | token _ _ => simp
  | @last j h =>
    have hend := Ending.ofFault?_ne_live r.rest.fault?
    have hlt := (List.getElem?_eq_some_iff.mp h).1
    simp only [finish, List.getElem?_set, hlt]
    by_cases hij : j = i
    · simp [hij, hend]
    · simp [hij]

/-- A request that finds its stream finished was too late, or has been given all that was left. -/
theorem Answered.of_finished {r r' : Reader} {e : Reply} (h : Answered r e r')
    (hend : e.ending = .finished) :
    r.finished[e.stream]? = some true ∨ e.tokens = r.rest.tokens ∧ r.rest.fault? = none := by
  cases h with
  | ended h => exact .inl h
  | token _ _ => cases hend
  | last _ => exact .inr ⟨rfl, Ending.ofFault?_eq_finished_iff.mp hend⟩

/-- A request that meets a fault has been given all in front of it, and the cursor is on the
character at fault. -/
theorem Answered.of_fault {r r' : Reader} {e : Reply} {f : Fault} (h : Answered r e r')
    (hend : e.ending = .fault f) :
    e.tokens = r.rest.tokens ∧ r.rest.fault? = some f ∧
      ∃ c t, r.source.drop e.cursor = c :: t ∧ Token.Stuck e.cursor c t f := by
  cases h with
  | ended _ => cases hend
  | token _ _ => cases hend
  | @last i _ =>
    have hf := Ending.ofFault?_eq_fault_iff.mp hend
    obtain ⟨a, b, hab, hstop, -, hfaults⟩ := r.reading_rest.exists_stop
    obtain ⟨c, t, rfl, hstuck⟩ := hfaults f hf
    exact ⟨rfl, hf, c, t, remaining_of_append hab (r.finish i r.rest.stop) rfl hstop, hstuck⟩

/-! ## Runs -/

/-- Requests in any order, with streams opened on the way, and if the run is `editable` with the
text replaced. -/
inductive Run (editable : Prop) (start : Reader) : List Reply → Reader → Prop
  | nil : Run editable start [] start
  | openStream {log : List Reply} {r : Reader} (h : Run editable start log r) :
      Run editable start log r.openStream
  | setSource {log : List Reply} {r : Reader} (he : editable) (h : Run editable start log r)
      (source : Text) : Run editable start log (r.setSource source)
  | ask {log : List Reply} {r r' : Reader} {e : Reply} (h : Run editable start log r)
      (he : Answers r e r') : Run editable start (log ++ [e]) r'

/-- A run in which the text stays the same. -/
abbrev Stretch := Run False

/-- The tokens that replies give, in order. -/
def Reply.allTokens (log : List Reply) : List Token :=
  log.flatMap Reply.tokens

theorem Reply.allTokens_concat (log : List Reply) (e : Reply) :
    allTokens (log ++ [e]) = allTokens log ++ e.tokens := by
  simp [allTokens]

variable {editable : Prop} {start r : Reader} {log : List Reply}

theorem Stretch.moves (h : Stretch start log r) : Moves start r (Reply.allTokens log) := by
  induction h with
  | nil => exact .refl start
  | openStream _ ih => exact ⟨ih.source_eq, ih.cursor_le, ih.rest_eq, ih.taken⟩
  | setSource he _ _ _ => exact he.elim
  | ask _ he ih =>
    rw [Reply.allTokens_concat]
    exact ih.trans he.answered.moves

theorem Run.cursor_le (h : Run editable start log r) : start.cursor ≤ r.cursor := by
  induction h with
  | nil => exact Nat.le_refl _
  | openStream _ ih => exact ih
  | setSource _ _ _ ih => exact ih
  | ask _ he ih => exact Nat.le_trans ih he.answered.moves.cursor_le

/-- Over a whole run tokens are given in order, and all that have been stand in front of the
cursor. -/
theorem Run.increasing (h : Run editable start log r) :
    ((Reply.allTokens log).Pairwise fun t u => t.position < u.position) ∧
      ∀ t ∈ Reply.allTokens log, t.position < r.cursor := by
  induction h with
  | nil => exact ⟨.nil, fun t ht => absurd ht List.not_mem_nil⟩
  | openStream _ ih => exact ih
  | setSource _ _ _ ih => exact ih
  | ask _ he ih =>
    have hmoves := he.answered.moves
    have hle := hmoves.cursor_le
    obtain ⟨hpair, hfrom⟩ := hmoves.increasing
    rw [Reply.allTokens_concat]
    refine ⟨List.pairwise_append.mpr ⟨ih.1, hpair, fun t ht u hu => ?_⟩, fun t ht => ?_⟩
    · have := ih.2 t ht
      have := hfrom u hu
      omega
    · rcases List.mem_append.mp ht with ht | ht
      · have := ih.2 t ht
        omega
      · exact hmoves.taken t ht

/-- The streams that are over are those that were at the start and those with a reply that says
so. -/
theorem Run.finished_iff (h : Run editable start log r) (i : Nat) :
    r.finished[i]? = some true ↔
      start.finished[i]? = some true ∨ ∃ e ∈ log, e.stream = i ∧ e.ending ≠ .live := by
  induction h with
  | nil => simp
  | @openStream log r _ ih =>
    rw [← ih, Reader.openStream, List.getElem?_append]
    split
    · rfl
    · rename_i hle
      rw [List.getElem?_eq_none (Nat.not_lt.mp hle), List.getElem?_singleton]
      split <;> simp
  | setSource _ _ _ ih => exact ih
  | ask _ he ih =>
    rw [he.answered.finished_iff, ih, or_assoc]
    simp [or_and_right, exists_or]

/-- Every reply of a run was given on the way. -/
theorem Run.split (h : Run editable start log r) :
    ∀ {pre post : List Reply} {e : Reply}, log = pre ++ e :: post →
      ∃ r₁ r₂, Run editable start pre r₁ ∧ Answers r₁ e r₂ := by
  induction h with
  | nil => exact fun h => absurd h (by simp)
  | openStream _ ih => exact ih
  | setSource _ _ _ ih => exact ih
  | @ask log r r' e' h he ih =>
    intro pre post e hlog
    rcases List.eq_nil_or_concat post with rfl | ⟨post, last, rfl⟩
    · obtain ⟨rfl, hlast⟩ := List.append_inj' hlog rfl
      obtain rfl := (List.cons.inj hlast).1
      exact ⟨r, r', h, he⟩
    · rw [List.concat_eq_append, ← List.cons_append, ← List.append_assoc] at hlog
      exact ih (List.append_inj' hlog rfl).1

/-! ## What the streams are given together -/

/-- **Nothing is lost and nothing is given twice** in the replies `more`, which follow the replies
`log`: together they are what one stream alone would be given. -/
structure Delivers (r : Reader) (log more : List Reply) : Prop where
  /-- The tokens are the first of those that one stream alone is given. -/
  tokens : Reply.allTokens more <+: r.alone.1.map (Token.shift r.cursor)
  /-- Behind the end of the text there are none. -/
  beyond : r.source.length ≤ r.cursor → Reply.allTokens more = []
  /-- A stream ends when all has been given and no fault is due, or has ended before. -/
  finished : ∀ pre e post, more = pre ++ e :: post → e.ending = .finished →
    (Reply.allTokens (pre ++ [e]) = r.alone.1.map (Token.shift r.cursor) ∧ r.alone.2 = none) ∨
      ∃ e' ∈ log ++ pre, e'.stream = e.stream ∧ e'.ending ≠ .live
  /-- A fault is the one that a stream alone meets, when all in front of it has been given, and the
  cursor is left on the character at fault. -/
  fault : ∀ pre e post f, more = pre ++ e :: post → e.ending = .fault f →
    Reply.allTokens (pre ++ [e]) = r.alone.1.map (Token.shift r.cursor) ∧
      r.alone.2.map (Fault.shift r.cursor) = some f ∧
      ∃ c t, r.source.drop e.cursor = c :: t ∧ Token.Stuck e.cursor c t f

/-- A stream that ends with all that is left has been given what one stream alone would be. -/
theorem Stretch.last {start r : Reader} {log : List Reply} (h : Stretch start log r) :
    Reply.allTokens log ++ r.rest.tokens = start.alone.1.map (Token.shift start.cursor) ∧
      r.rest.fault? = start.alone.2.map (Fault.shift start.cursor) := by
  obtain ⟨htokens, hfault⟩ := start.rest_eq_alone
  rw [h.moves.rest_eq] at htokens hfault
  exact ⟨htokens, hfault⟩

theorem Stretch.delivers {more : List Reply} {r' : Reader} (hr : Run editable start log r)
    (hstart : start.finished = []) (h : Stretch r more r') : r.Delivers log more := by
  have hfront : Reply.allTokens more <+: r.alone.1.map (Token.shift r.cursor) :=
    ⟨r'.rest.tokens, h.last.1⟩
  refine ⟨hfront, fun hle => ?_, fun pre e post hmore hend => ?_, fun pre e post f hmore hend => ?_⟩
  · have hremaining : r.remaining = [] := List.drop_eq_nil_of_le hle
    rw [alone, hremaining] at hfront
    exact List.prefix_nil.mp hfront
  · obtain ⟨r₁, r₂, hpre, he⟩ := h.split hmore
    rcases he.answered.of_finished hend with hover | ⟨htokens, hnone⟩
    · -- the stream was over before the request, and none is at the start of the run
      rw [hpre.finished_iff, hr.finished_iff, hstart] at hover
      rcases hover with (hnever | ⟨e', he', hstream⟩) | ⟨e', he', hstream⟩
      · cases hnever
      · exact .inr ⟨e', List.mem_append_left _ he', hstream⟩
      · exact .inr ⟨e', List.mem_append_right _ he', hstream⟩
    · obtain ⟨hall, hfault⟩ := Stretch.last hpre
      rw [hnone] at hfault
      refine .inl ⟨?_, Option.map_eq_none_iff.mp hfault.symm⟩
      rw [Reply.allTokens_concat, htokens, hall]
  · obtain ⟨r₁, r₂, hpre, he⟩ := h.split hmore
    obtain ⟨htokens, hsome, c, t, hdrop, hstuck⟩ := he.answered.of_fault hend
    obtain ⟨hall, hfault⟩ := Stretch.last hpre
    rw [(Stretch.moves hpre).source_eq] at hdrop
    refine ⟨?_, hfault ▸ hsome, c, t, hdrop, hstuck⟩
    rw [Reply.allTokens_concat, htokens, hall]

/-- **Streams that share a cursor lose nothing and repeat nothing.** After any run from a new
reader: in every stretch in which the text stays the same, the streams together are given what one
stream alone would be; over the whole run the cursor does not go back and tokens are given in order;
and a stream that has ended is given nothing more, whatever the text is by then. -/
theorem run_delivers {source : Text} (h : Run True { source } log r) :
    (∀ more r', Stretch r more r' → r.Delivers log more) ∧
    ((Reply.allTokens log).Pairwise fun t u => t.position < u.position) ∧
    (∀ more r', Run True r more r' → r.cursor ≤ r'.cursor) ∧
    ∀ e ∈ log, e.ending ≠ .live →
      r.next e.stream = (.finished, r) ∧ r.drain e.stream = (([], none), r) := by
  refine ⟨fun more r' hmore => Stretch.delivers h rfl hmore, h.increasing.1,
    fun more r' hmore => hmore.cursor_le, fun e he hend => ?_⟩
  have hover : r.finished[e.stream]? = some true := (h.finished_iff _).mpr (.inr ⟨e, he, rfl, hend⟩)
  constructor
  · rw [next, hover]
  · rw [drain, hover]

/-- Of two streams the second meets a string that never ends. When the text is replaced by one in
which it does end, the first stream is given the rest, and the second nothing more. -/
theorem run_delivers_replaced :
    ∃ log r, Run True { source := "a \"b".toList } log r ∧
      log = [⟨0, [⟨.name, ['a'], 0⟩], .live, 1⟩,
        ⟨1, [], .fault (.unterminatedString (some 2)), 2⟩, ⟨1, [], .finished, 2⟩,
        ⟨0, [⟨.string, ['b'], 2⟩, ⟨.number, ['7'], 6⟩], .finished, 7⟩] ∧
      r.next 1 = (.finished, r) ∧ r.drain 0 = (([], none), r) := by
  have h : Run True { source := "a \"b".toList } [] _ := .openStream (.openStream .nil)
  have h := h.ask (.next (i := 0) (by decide))
  have h := h.ask (.next (i := 1) (by decide))
  have h := h.setSource trivial "a \"b\" 7".toList
  have h := h.ask (.next (i := 1) (by decide))
  have h := h.ask (.drain (i := 0) (by decide))
  obtain ⟨-, -, -, hover⟩ := run_delivers h
  refine ⟨_, _, h, by decide +kernel, (hover ⟨1, [], .finished, 2⟩ ?_ ?_).1,
    (hover ⟨0, [⟨.string, ['b'], 2⟩, ⟨.number, ['7'], 6⟩], .finished, 7⟩ ?_ ?_).2⟩
  all_goals decide +kernel

end Reader

end CallNotation
