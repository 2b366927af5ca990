import CallNotation.Proofs.Token.Place

/-!
# Readings

`Reading pos s d` says, without a scanner, what reading the text `s` at offset `pos` comes to:
blanks, then a valid lexeme that stands apart from what follows it, then a reading of that, up to
the end of the text or to a character at which no token starts.

Results:
* **`reading_iff`**: `drain` computes the reading, so every text has exactly one.
* `Reading.append`: the readings of two texts that stand apart are the reading of both in a row.
* `Reading.cut`: a text can be cut anywhere but inside a lexeme.
* `Reading.split`: in front of its `i`-th token, a text is cut into the tokens before and the rest.
* `Reading.exists_stop`, `Reading.increasing`: where a reading stops, and that its tokens stand in
  order in front of that.
* `Reading.shift`: the offset at which a reading starts matters to nothing but positions.
-/

namespace CallNotation

namespace Token

/-- The reading of a text at an offset. -/
inductive Reading : Nat → Text → Drained → Prop
  | finished {pos : Nat} {g : Text} (hg : Text.Blank g) :
      Reading pos g ⟨[], none, pos + g.length⟩
  | stuck {pos : Nat} {g : Text} {c : Char} {t : Text} {f : Fault} (hg : Text.Blank g)
      (h : Stuck (pos + g.length) c t f) :
      Reading pos (g ++ c :: t) ⟨[], some f, pos + g.length⟩
  | lexeme {pos : Nat} {g : Text} {l : Lexeme} {s : Text} {d : Drained} (hg : Text.Blank g)
      (hv : l.Valid) (hs : Text.Apart l.text s)
      (h : Reading (pos + g.length + l.text.length) s d) :
      Reading pos (g ++ (l.text ++ s)) (d.cons (l.token (pos + g.length : Nat)))

/-! ## `drain` computes the reading -/

theorem drainFrom_skip (pos : Nat) (s : Text) : ∀ a : Text,
    drainFrom a.length pos (a ++ s) = drainFrom 0 (pos + a.length) s
  | [] => rfl
  | c :: a => by
    rw [List.length_cons, List.cons_append, drainFrom, drainFrom_skip (pos + 1) s a,
      Nat.add_assoc, Nat.add_comm 1]

theorem drain_blank {g : Text} (hg : Text.Blank g) (pos : Nat) (s : Text) :
    drain pos (g ++ s) = drain (pos + g.length) s := by
  induction g generalizing pos with
  | nil => rfl
  | cons c g ih =>
    obtain ⟨hc, hg⟩ := List.forall_mem_cons.mp hg
    have h := ih hg (pos + 1)
    unfold drain at h ⊢
    rw [List.cons_append, drainFrom, if_pos hc, h, List.length_cons, Nat.add_assoc,
      Nat.add_comm 1]

theorem drain_text {l : Lexeme} (hv : l.Valid) {s : Text} (hs : Text.Apart l.text s)
    (pos : Nat) :
    drain pos (l.text ++ s) = (drain (pos + l.text.length) s).cons (l.token pos) := by
  obtain ⟨c, t, ht, hb, hp⟩ := pieceAt_text hv hs pos
  obtain ⟨a, w, hw⟩ := List.exists_cons_of_ne_nil (Lexeme.text_ne_nil hv)
  unfold drain
  rw [ht, drainFrom, if_neg (by simp [hb])]
  simp only [hp]
  -- the characters behind the first are passed over
  have hskip := drainFrom_skip (pos + 1) s w
  rw [hw, List.cons_append, List.cons.injEq] at ht
  rw [hw, List.length_cons, Nat.add_sub_cancel, ← ht.2, hskip, Nat.add_assoc, Nat.add_comm 1]
  rfl

theorem drain_stuck {pos : Nat} {c : Char} {t : Text} {f : Fault} (h : Stuck pos c t f) :
    drain pos (c :: t) = ⟨[], some f, pos⟩ := by
  unfold drain
  rw [drainFrom, if_neg (by simp [h.not_isBlank])]
  simp only [pieceAt_stuck h]

theorem Reading.drain_eq {pos : Nat} {s : Text} {d : Drained} (h : Reading pos s d) :
    drain pos s = d := by
  induction h with
  | @finished pos g hg =>
    have := drain_blank hg pos []
    rwa [List.append_nil] at this
  | stuck hg h => rw [drain_blank hg, drain_stuck h]
  | lexeme hg hv hs _ ih => rw [drain_blank hg, drain_text hv hs, ih]

/-- A text begins with blanks, and then ends or goes on with a character that is not blank. -/
theorem exists_blank (s : Text) :
    ∃ g t, s = g ++ t ∧ Text.Blank g ∧ ∀ c ∈ t.head?, isBlank c = false :=
  ⟨s.takeWhile isBlank, s.dropWhile isBlank, List.takeWhile_append_dropWhile.symm,
    fun _ => List.mem_takeWhile_imp, head?_dropWhile_eq_false s⟩

theorem exists_reading (pos : Nat) (s : Text) : ∃ d, Reading pos s d := by
  obtain ⟨g, t, hs, hg, ht⟩ := exists_blank s
  match t, ht with
  | [], _ =>
    rw [hs, List.append_nil]
    exact ⟨_, .finished hg⟩
  | c :: t, ht =>
    rcases lexeme_or_stuck (pos + g.length) (ht c rfl) t with ⟨l, r, hv, ha, hc⟩ | ⟨f, hf⟩
    · have hpos := List.length_pos_iff.mpr (Lexeme.text_ne_nil hv)
      have hlt : r.length < s.length := by
        rw [hs, hc, List.length_append, List.length_append]
        omega
      obtain ⟨d, hd⟩ := exists_reading (pos + g.length + l.text.length) r
      rw [hs, hc]
      exact ⟨_, .lexeme hg hv ha hd⟩
    · rw [hs]
      exact ⟨_, .stuck hg hf⟩
termination_by s.length

/-- **`drain` computes the reading**, and there is no other. -/
theorem reading_iff {pos : Nat} {s : Text} {d : Drained} : Reading pos s d ↔ drain pos s = d := by
  refine ⟨Reading.drain_eq, ?_⟩
  rintro rfl
  obtain ⟨d, hd⟩ := exists_reading pos s
  rw [hd.drain_eq]
  exact hd

/-! ## One token at a time -/

theorem pull_blank {g : Text} (hg : Text.Blank g) (pos : Nat) (s : Text) :
    pull pos (g ++ s) = pull (pos + g.length) s := by
  induction g generalizing pos with
  | nil => rfl
  | cons c g ih =>
    obtain ⟨hc, hg⟩ := List.forall_mem_cons.mp hg
    rw [List.cons_append, pull, if_pos hc, ih hg, List.length_cons, Nat.add_assoc, Nat.add_comm 1]

theorem pull_text {l : Lexeme} (hv : l.Valid) {s : Text} (hs : Text.Apart l.text s) (pos : Nat) :
    pull pos (l.text ++ s) = .token (l.token pos) (pos + l.text.length) := by
  obtain ⟨c, t, ht, hb, hp⟩ := pieceAt_text hv hs pos
  rw [ht, pull, if_neg (by simp [hb])]
  simp only [hp]
  rfl

theorem pull_stuck {pos : Nat} {c : Char} {t : Text} {f : Fault} (h : Stuck pos c t f) :
    pull pos (c :: t) = .fault f pos := by
  rw [pull, if_neg (by simp [h.not_isBlank])]
  simp only [pieceAt_stuck h]

/-! ## Tokens in their places -/

/-- The offset behind the token. -/
def stop (t : Token) : Int :=
  t.position + t.lexeme.text.length

@[simp] theorem stop_token (l : Lexeme) (position : Int) :
    (l.token position).stop = position + l.text.length := rfl

theorem Reading.valid {pos : Nat} {s : Text} {d : Drained} (h : Reading pos s d) :
    ∀ t ∈ d.tokens, t.lexeme.Valid := by
  induction h with
  | finished _ => exact fun t ht => absurd ht List.not_mem_nil
  | stuck _ _ => exact fun t ht => absurd ht List.not_mem_nil
  | lexeme _ hv _ _ ih => exact List.forall_mem_cons.mpr ⟨hv, ih⟩

theorem Reading.fault_family {pos : Nat} {s : Text} {d : Drained} (h : Reading pos s d) :
    ∀ f ∈ d.fault?, f.family = .lexical := by
  induction h with
  | finished _ => exact fun f hf => by cases hf
  | stuck _ h => rintro f ⟨⟩; cases h <;> rfl
  | lexeme _ _ _ _ ih => exact ih

/-- A reading without a fault goes to the end of the text. -/
theorem Reading.stop_eq {pos : Nat} {s : Text} {d : Drained} (h : Reading pos s d)
    (hd : d.fault? = none) : d.stop = pos + s.length := by
  induction h with
  | finished _ => rfl
  | stuck _ _ => cases hd
  | lexeme _ _ _ _ ih =>
    have := ih hd
    simp only [Drained.cons, List.length_append] at this ⊢
    omega

/-- A reading stops at the end of the text, or in front of the character at fault. -/
theorem Reading.exists_stop {pos : Nat} {s : Text} {d : Drained} (h : Reading pos s d) :
    ∃ a b, s = a ++ b ∧ d.stop = pos + a.length ∧ drain d.stop b = ⟨[], d.fault?, d.stop⟩ ∧
      ∀ f ∈ d.fault?, ∃ c t, b = c :: t ∧ Stuck d.stop c t f := by
  induction h with
  | @finished pos g _ => exact ⟨g, [], (List.append_nil g).symm, rfl, rfl, by rintro f ⟨⟩⟩
  | @stuck pos g c t f _ h =>
    refine ⟨g, c :: t, rfl, rfl, drain_stuck h, ?_⟩
    rintro f ⟨⟩
    exact ⟨c, t, rfl, h⟩
  | @lexeme pos g l s d _ _ _ _ ih =>
    obtain ⟨a, b, rfl, hstop, hd, hf⟩ := ih
    refine ⟨g ++ (l.text ++ a), b, by simp only [List.append_assoc], ?_, hd, hf⟩
    simp only [Drained.cons, hstop, List.length_append]
    omega

/-- The tokens of a reading stand in order between its two ends. -/
theorem Reading.increasing {pos : Nat} {s : Text} {d : Drained} (h : Reading pos s d) :
    pos ≤ d.stop ∧ (d.tokens.Pairwise fun t u => t.position < u.position) ∧
      ∀ t ∈ d.tokens, (pos : Int) ≤ t.position ∧ t.position < d.stop := by
  induction h with
  | finished _ => exact ⟨Nat.le_add_right _ _, .nil, fun t ht => absurd ht List.not_mem_nil⟩
  | stuck _ _ => exact ⟨Nat.le_add_right _ _, .nil, fun t ht => absurd ht List.not_mem_nil⟩
  | @lexeme pos g l s d _ hv _ _ ih =>
    obtain ⟨hle, hpair, hbounds⟩ := ih
    have hpos := List.length_pos_iff.mpr (Lexeme.text_ne_nil hv)
    refine ⟨?_, .cons (fun u hu => ?_) hpair, List.forall_mem_cons.mpr ⟨?_, fun u hu => ?_⟩⟩
    · simp only [Drained.cons]
      omega
    · have := (hbounds u hu).1
      rw [Lexeme.token_position]
      omega
    · simp only [Lexeme.token_position, Drained.cons]
      omega
    · have := hbounds u hu
      simp only [Drained.cons]
      omega

/-! ## Putting readings together -/

/-- The same reading with more tokens in front. -/
def Drained.prepend (ts : List Token) (d : Drained) : Drained :=
  { d with tokens := ts ++ d.tokens }

/-- Where two texts stand apart, the second is read as if it were alone. -/
theorem Reading.append {pos : Nat} {a b : Text} {d : Drained} (h : Reading pos a d)
    (hd : d.fault? = none) (hab : Text.Apart a b) :
    drain pos (a ++ b) = (drain (pos + a.length) b).prepend d.tokens := by
  induction h with
  | finished hg => exact drain_blank hg _ b
  | stuck _ _ => cases hd
  | @lexeme pos g l s d hg hv hs _ ih =>
    have hne := Lexeme.text_ne_nil hv
    rw [Text.apart_append_left (by simp [hne])] at hab
    have hls : Text.Apart l.text (s ++ b) := by
      by_cases hnil : s = []
      · rw [hnil, List.append_nil] at hab
        rwa [hnil, List.nil_append]
      · exact (Text.apart_append_right hnil).mpr hs
    have hsb : Text.Apart s b := by
      by_cases hnil : s = []
      · rw [hnil]
        exact Text.apart_nil_left b
      · exact (Text.apart_append_left hnil).mp hab
    rw [List.append_assoc, List.append_assoc, drain_blank hg, drain_text hv hls, ih hd hsb,
      List.length_append, List.length_append, ← Nat.add_assoc, ← Nat.add_assoc]
    rfl

/-! ## Taking readings apart -/

/-- Of two ways to cut one text, the shorter first part is the beginning of the longer. -/
theorem exists_between {a b g r : Text} (h : a ++ b = g ++ r) (hle : a.length ≤ g.length) :
    ∃ x, g = a ++ x ∧ b = x ++ r := by
  obtain ⟨x, rfl⟩ := List.prefix_of_prefix_length_le (List.prefix_append a b)
    (h ▸ List.prefix_append g r) hle
  rw [List.append_assoc] at h
  exact ⟨x, rfl, List.append_cancel_left h⟩

/-- **A text can be cut anywhere but inside a lexeme**: both parts are read alone as they are in
the whole, up to the character at which the reading stops. -/
theorem Reading.cut {pos : Nat} {s : Text} {d : Drained} (h : Reading pos s d) :
    ∀ {a b : Text}, s = a ++ b → pos + a.length ≤ d.stop →
      (∀ t ∈ d.tokens, t.stop ≤ (pos + a.length : Nat) ∨ (pos + a.length : Nat) ≤ t.position) →
      Text.Apart a b ∧ ∃ ts us, d.tokens = ts ++ us ∧ drain pos a = ⟨ts, none, pos + a.length⟩ ∧
        drain (pos + a.length) b = ⟨us, d.fault?, d.stop⟩ := by
  -- a cut within the blanks in front leaves the reading as it is
  have hblank : ∀ {pos : Nat} {g r a b : Text} {d : Drained}, Reading pos (g ++ r) d →
      Text.Blank g → g ++ r = a ++ b → a.length ≤ g.length →
      Text.Apart a b ∧ ∃ ts us, d.tokens = ts ++ us ∧ drain pos a = ⟨ts, none, pos + a.length⟩ ∧
        drain (pos + a.length) b = ⟨us, d.fault?, d.stop⟩ := by
    intro pos g r a b d h hg hs hle
    obtain ⟨x, rfl, rfl⟩ := exists_between hs.symm hle
    have ha : Text.Blank a := fun c hc => hg c (List.mem_append_left x hc)
    refine ⟨Text.apart_of_blank_left ha _, [], d.tokens, rfl, ?_, ?_⟩
    · exact (Reading.finished ha).drain_eq
    · have := h.drain_eq
      rwa [List.append_assoc, drain_blank ha] at this
  induction h with
  | @finished pos g hg =>
    intro a b hs _ _
    refine hblank (r := []) (by simpa using .finished hg) hg (by simpa using hs) ?_
    rw [hs, List.length_append]
    exact Nat.le_add_right _ _
  | stuck hg h =>
    intro a b hs hle _
    exact hblank (.stuck hg h) hg hs (Nat.le_of_add_le_add_left hle)
  | @lexeme pos g l s d hg hv hls h ih =>
    intro a b hs hle hcut
    by_cases hag : a.length ≤ g.length
    · exact hblank (.lexeme hg hv hls h) hg hs hag
    · obtain ⟨hl, hcut⟩ := List.forall_mem_cons.mp hcut
      have hlen : (g ++ l.text).length ≤ a.length := by
        simp only [stop_token, Lexeme.token_position, List.length_append] at hl ⊢
        omega
      rw [← List.append_assoc] at hs
      obtain ⟨x, rfl, rfl⟩ := exists_between hs hlen
      have hoff : pos + (g ++ l.text ++ x).length = pos + g.length + l.text.length + x.length := by
        simp only [List.length_append]
        omega
      rw [hoff] at hle hcut ⊢
      obtain ⟨hab, ts, us, htok, hx, hb⟩ := ih rfl hle hcut
      refine ⟨?_, l.token (pos + g.length : Nat) :: ts, us, ?_, ?_, hb⟩
      · rw [List.append_assoc, Text.apart_append_left (by simp [Lexeme.text_ne_nil hv])]
        exact Text.apart_append hls hab
      · rw [Drained.cons, htok, List.cons_append]
      · rw [List.append_assoc, drain_blank hg, drain_text hv hls.prefix_right, hx]
        rfl

/-- **In front of each token** the text is cut into what the tokens before it are read from, the
token's own characters, and what the tokens behind it are read from. -/
theorem Reading.split {pos : Nat} {s : Text} {d : Drained} (h : Reading pos s d) :
    ∀ {ts us : List Token} {t : Token}, d.tokens = ts ++ t :: us →
      ∃ a b, s = a ++ (t.lexeme.text ++ b) ∧ t.position = (pos + a.length : Nat) ∧
        Text.Apart a (t.lexeme.text ++ b) ∧ Text.Apart t.lexeme.text b ∧
        drain pos a = ⟨ts, none, pos + a.length⟩ ∧
        drain (pos + a.length + t.lexeme.text.length) b = ⟨us, d.fault?, d.stop⟩ := by
  induction h with
  | finished _ => exact fun h => absurd h (by simp)
  | stuck _ _ => exact fun h => absurd h (by simp)
  | @lexeme pos g l s d hg hv hls h ih =>
    intro ts us t htok
    cases ts with
    | nil =>
      obtain ⟨rfl, rfl⟩ := List.cons.inj htok
      exact ⟨g, s, rfl, rfl, Text.apart_of_blank_left hg _, hls, (Reading.finished hg).drain_eq,
        h.drain_eq⟩
    | cons u ts =>
      obtain ⟨hu, ht⟩ := List.cons.inj htok
      subst hu
      obtain ⟨a, b, rfl, hpos, ha, hb, hda, hdb⟩ := ih ht
      have hoff : pos + (g ++ (l.text ++ a)).length =
          pos + g.length + l.text.length + a.length := by
        simp only [List.length_append]
        omega
      refine ⟨g ++ (l.text ++ a), b, by simp only [List.append_assoc], ?_, ?_, hb, ?_, ?_⟩
      · rw [hpos, hoff]
      · rw [Text.apart_append_left (by simp [Lexeme.text_ne_nil hv])]
        exact Text.apart_append hls ha
      · rw [drain_blank hg, drain_text hv hls.prefix_right, hda, hoff]
        rfl
      · rw [hoff]
        exact hdb

/-! ## Moving readings -/

theorem Stuck.shift {pos : Nat} {c : Char} {t : Text} {f : Fault} (h : Stuck pos c t f) (k : Nat) :
    Stuck (pos + k) c t (f.shift k) := by
  cases h with
  | unterminated h => exact .unterminated h
  | invalid hb h => exact .invalid hb h

/-- **The offset at which a reading starts matters to nothing but positions.** -/
theorem drain_shift (pos k : Nat) (s : Text) :
    drain (pos + k) s =
      ⟨(drain pos s).tokens.map (shift k), (drain pos s).fault?.map (Fault.shift k),
        (drain pos s).stop + k⟩ := by
  obtain ⟨d, hd⟩ := exists_reading pos s
  rw [hd.drain_eq]
  induction hd with
  | @finished pos g hg =>
    rw [(Reading.finished hg).drain_eq, Nat.add_right_comm]
    rfl
  | @stuck pos g c t f hg h =>
    have h := h.shift k
    rw [Nat.add_right_comm] at h
    rw [(Reading.stuck hg h).drain_eq, Nat.add_right_comm]
    rfl
  | @lexeme pos g l s d hg hv hs _ ih =>
    rw [drain_blank hg, drain_text hv hs, Nat.add_right_comm pos k, Nat.add_right_comm _ k, ih,
      Int.natCast_add]
    rfl

end Token

end CallNotation
