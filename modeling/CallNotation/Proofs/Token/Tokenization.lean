import CallNotation.Proofs.Token.Layout
import Mathlib.Data.Set.Subsingleton

/-!
# Tokenizations

A tokenization takes a text to pieces: its tokens, the gap in front of each, and the gap behind the
last. It is maximal if no gap is missing between two numbers or two names, which would be read as
one; then each token is as long as it can be. Where the tokens stand is told by counting characters,
so a tokenization can be given without a scanner, and checked by putting the pieces together.

Results:
* `MaximalAt.drain_eq`: the tokens of a maximal tokenization are those that are read.
* **`scan_tokenizes`**: the scanner finds the maximal tokenization of a text, and there is one at
  most.
-/

namespace CallNotation

/-- A text taken to pieces. -/
structure Tokenization where
  /-- The tokens, each with the gap in front of it. -/
  pieces : List (Text × Token)
  /-- The gap behind the last token. -/
  rest : Text

namespace Tokenization

/-- The characters of some pieces in a row. -/
def spelling (ps : List (Text × Token)) : Text :=
  ps.flatMap fun p => p.1 ++ p.2.lexeme.text

/-- The text, put together again. -/
def text (k : Tokenization) : Text :=
  spelling k.pieces ++ k.rest

/-- The tokens in order. -/
def tokens (k : Tokenization) : List Token :=
  k.pieces.map Prod.snd

/-- The gaps in order. -/
def gaps (k : Tokenization) : List Text :=
  k.pieces.map Prod.fst ++ [k.rest]

/-- Each token stands where the number of characters in front of it says; the first piece starts at
the offset `pos`. -/
def Placed (pos : Nat) (ps : List (Text × Token)) : Prop :=
  ∀ (as : List (Text × Token)) (g : Text) (t : Token) (bs : List (Text × Token)),
    ps = as ++ (g, t) :: bs → t.position = (pos + (spelling as ++ g).length : Nat)

/-- **No token could be longer.** The text starts at the offset `pos`. -/
structure MaximalAt (pos : Nat) (k : Tokenization) : Prop where
  /-- Nothing but blanks is between the tokens. -/
  blank : ∀ g ∈ k.gaps, g.Blank
  /-- Each token has a value of its class. -/
  valid : ∀ t ∈ k.tokens, t.lexeme.Valid
  /-- Two numbers or two names in a row have something between them. -/
  apart : k.pieces.IsChain fun p q => p.2.kind.Merges q.2.kind → q.1 ≠ []
  placed : Placed pos k.pieces

variable {pos : Nat} {g rest : Text} {t : Token} {ps qs : List (Text × Token)}

theorem text_cons :
    text ⟨(g, t) :: ps, rest⟩ = g ++ (t.lexeme.text ++ text ⟨ps, rest⟩) := by
  simp only [text, spelling, List.flatMap_cons, List.append_assoc]

theorem placed_cons :
    Placed pos ((g, t) :: ps) ↔
      t.position = (pos + g.length : Nat) ∧
        Placed (pos + g.length + t.lexeme.text.length) ps := by
  -- in front of a later token stands the first piece, whatever else does
  have hlen (as : List (Text × Token)) (g' : Text) :
      pos + (spelling ((g, t) :: as) ++ g').length =
        pos + g.length + t.lexeme.text.length + (spelling as ++ g').length := by
    simp only [spelling, List.flatMap_cons, List.length_append]
    omega
  constructor
  · intro h
    refine ⟨h [] g t ps rfl, fun as g' t' bs hps => ?_⟩
    rw [← hlen]
    exact h ((g, t) :: as) g' t' bs (congrArg _ hps)
  · rintro ⟨hfirst, h⟩ as g' t' bs hps
    cases as with
    | nil =>
      cases hps
      exact hfirst
    | cons a as =>
      obtain ⟨rfl, htail⟩ := List.cons.inj hps
      rw [hlen]
      exact h as g' t' bs htail

/-- What is to be said of the first piece, and what of the others. -/
theorem maximalAt_cons :
    MaximalAt pos ⟨(g, t) :: ps, rest⟩ ↔
      (g.Blank ∧ t.lexeme.Valid ∧ t.position = (pos + g.length : Nat) ∧
        ∀ q ∈ ps.head?, t.kind.Merges q.2.kind → q.1 ≠ []) ∧
      MaximalAt (pos + g.length + t.lexeme.text.length) ⟨ps, rest⟩ := by
  constructor
  · rintro ⟨hblank, hvalid, hapart, hplaced⟩
    obtain ⟨hg, hblank⟩ := List.forall_mem_cons.mp hblank
    obtain ⟨ht, hvalid⟩ := List.forall_mem_cons.mp hvalid
    obtain ⟨hhead, hapart⟩ := List.isChain_cons.mp hapart
    obtain ⟨hpos, hplaced⟩ := placed_cons.mp hplaced
    exact ⟨⟨hg, ht, hpos, hhead⟩, hblank, hvalid, hapart, hplaced⟩
  · rintro ⟨⟨hg, ht, hpos, hhead⟩, hblank, hvalid, hapart, hplaced⟩
    exact ⟨List.forall_mem_cons.mpr ⟨hg, hblank⟩, List.forall_mem_cons.mpr ⟨ht, hvalid⟩,
      List.isChain_cons.mpr ⟨hhead, hapart⟩, placed_cons.mpr ⟨hpos, hplaced⟩⟩

theorem maximalAt_nil (hg : g.Blank) : MaximalAt pos ⟨[], g⟩ :=
  ⟨List.forall_mem_singleton.mpr hg, List.forall_mem_nil _, .nil, fun as g t bs h => by simp at h⟩

/-! ## Tokenizations and layouts -/

/-- The text of a maximal tokenization is a layout of its tokens. -/
theorem MaximalAt.layout (h : MaximalAt pos ⟨ps, rest⟩) :
    ∀ k : Option Token.Kind, (∀ j ∈ k, ∀ q ∈ ps.head?, j.Merges q.2.kind → q.1 ≠ []) →
      Layout Token.Kind.Merges k (ps.map fun p => p.2.lexeme) (text ⟨ps, rest⟩) := by
  induction ps generalizing pos with
  | nil => exact fun k _ => .nil (h.blank rest (List.mem_singleton_self rest))
  | cons p ps ih =>
    obtain ⟨g, t⟩ := p
    obtain ⟨⟨hg, -, -, hhead⟩, h⟩ := maximalAt_cons.mp h
    intro k hk
    rw [text_cons]
    refine .cons hg (fun j hj => hk j hj _ rfl) (ih h (some t.kind) ?_)
    rintro _ ⟨⟩
    exact hhead

/-- Every layout comes of a maximal tokenization, wherever it starts. -/
theorem exists_of_layout {k : Option Token.Kind} {ls : List Lexeme} {s : Text}
    (h : Layout Token.Kind.Merges k ls s) (hv : ∀ l ∈ ls, l.Valid) : ∀ pos : Nat,
      ∃ ps rest, MaximalAt pos ⟨ps, rest⟩ ∧ text ⟨ps, rest⟩ = s ∧
        ∀ j ∈ k, ∀ q ∈ ps.head?, j.Merges q.2.kind → q.1 ≠ [] := by
  induction h with
  | @nil k g hg => exact fun pos => ⟨[], g, maximalAt_nil hg, rfl, by simp⟩
  | @cons k g l ls s hg hgap _ ih =>
    intro pos
    obtain ⟨hl, hv⟩ := List.forall_mem_cons.mp hv
    obtain ⟨ps, rest, hps, rfl, hhead⟩ := ih hv (pos + g.length + l.text.length)
    refine ⟨(g, l.token (pos + g.length : Nat)) :: ps, rest,
      maximalAt_cons.mpr ⟨⟨hg, hl, rfl, hhead _ rfl⟩, hps⟩, text_cons, ?_⟩
    rintro j hj _ ⟨⟩
    exact hgap j hj

/-! ## Tokenizations and the scanner -/

/-- **The tokens of a maximal tokenization are those that are read.** -/
theorem MaximalAt.drain_eq (h : MaximalAt pos ⟨ps, rest⟩) :
    Token.drain pos (text ⟨ps, rest⟩) =
      ⟨ps.map Prod.snd, none, pos + (text ⟨ps, rest⟩).length⟩ := by
  induction ps generalizing pos with
  | nil => exact (Token.Reading.finished (h.blank rest (List.mem_singleton_self rest))).drain_eq
  | cons p ps ih =>
    obtain ⟨g, t⟩ := p
    obtain ⟨⟨hg, ht, hpos, hhead⟩, h⟩ := maximalAt_cons.mp h
    have hvalid : ∀ l ∈ ps.map (fun p => p.2.lexeme), l.Valid := by
      intro l hl
      obtain ⟨p, hp, rfl⟩ := List.mem_map.mp hl
      exact h.valid _ (List.mem_map_of_mem hp)
    have hlayout := h.layout (some t.kind) (by rintro _ ⟨⟩; exact hhead)
    -- the text behind the token does not go on with it, for the gap there would be missing
    have hapart : t.lexeme.text.Apart (text ⟨ps, rest⟩) :=
      (Lexeme.apart_iff ht _).mpr (hlayout.head_not_taken hvalid _ rfl)
    have htoken : t.lexeme.token (pos + g.length : Nat) = t := by
      rw [← hpos]
      rfl
    rw [text_cons, Token.drain_blank hg, Token.drain_text ht hapart, ih h, htoken,
      List.length_append, List.length_append, ← Nat.add_assoc, ← Nat.add_assoc]
    rfl

theorem MaximalAt.scan_eq {k : Tokenization} (h : k.MaximalAt 0) : scan k.text = .ok k.tokens :=
  scan_eq_ok_iff.mpr ⟨_, h.drain_eq⟩

/-- Where the tokens are the same, so are the gaps. -/
theorem MaximalAt.eq_of_tokens {rest' : Text} (h : MaximalAt pos ⟨ps, rest⟩)
    (h' : MaximalAt pos ⟨qs, rest'⟩) (htokens : ps.map Prod.snd = qs.map Prod.snd)
    (htext : text ⟨ps, rest⟩ = text ⟨qs, rest'⟩) : ps = qs ∧ rest = rest' := by
  induction ps generalizing pos qs with
  | nil =>
    obtain rfl := List.map_eq_nil_iff.mp htokens.symm
    exact ⟨rfl, htext⟩
  | cons p ps ih =>
    obtain ⟨g, t⟩ := p
    obtain ⟨⟨g', t'⟩, qs, rfl, rfl, hqs⟩ := List.map_eq_cons_iff.mp htokens.symm
    obtain ⟨⟨-, -, hpos, -⟩, h⟩ := maximalAt_cons.mp h
    obtain ⟨⟨-, -, hpos', -⟩, h'⟩ := maximalAt_cons.mp h'
    -- both gaps end where the token stands
    have hlen : g.length = g'.length := by
      rw [hpos] at hpos'
      omega
    rw [text_cons, text_cons] at htext
    obtain ⟨rfl, htext⟩ := List.append_inj htext hlen
    obtain ⟨rfl, rfl⟩ := ih h h' hqs.symm (List.append_cancel_left htext)
    exact ⟨rfl, rfl⟩

end Tokenization

open Tokenization

/-- **The scanner finds the maximal tokenization.** It gives tokens just if a text is taken to
pieces by them: blank gaps and valid tokens in turn, each token at the offset that is the number of
characters in front of it, and never two numbers or two names without a gap. A text can be taken to
pieces in one such way at most, gaps included. -/
theorem scan_tokenizes (source : Text) (ts : List Token) :
    (scan source = .ok ts ↔
      ∃ k : Tokenization, k.MaximalAt 0 ∧ k.text = source ∧ k.tokens = ts) ∧
    {k : Tokenization | k.MaximalAt 0 ∧ k.text = source}.Subsingleton := by
  constructor
  · constructor
    · intro h
      obtain ⟨hlayout, hv⟩ := spells_iff_layout.mp ⟨ts, h, rfl⟩
      obtain ⟨ps, rest, hmax, rfl, -⟩ := exists_of_layout hlayout hv 0
      rw [hmax.scan_eq] at h
      exact ⟨_, hmax, rfl, Except.ok.inj h⟩
    · rintro ⟨k, hmax, rfl, rfl⟩
      exact hmax.scan_eq
  · rintro ⟨ps, rest⟩ ⟨h, htext⟩ ⟨qs, rest'⟩ ⟨h', htext'⟩
    have hscan := h.scan_eq
    rw [htext, ← htext', h'.scan_eq] at hscan
    obtain ⟨rfl, rfl⟩ := h.eq_of_tokens h' (Except.ok.inj hscan).symm (htext.trans htext'.symm)
    rfl

end CallNotation
