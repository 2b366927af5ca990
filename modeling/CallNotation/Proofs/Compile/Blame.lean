import CallNotation.Proofs.Compile.Language
import CallNotation.Proofs.Expr.Refusal

/-!
# Faults are found at the earliest place

A text with tokens that does not compile is refused at one of them or at its end. The text in front
of a token has the tokens in front of it (`scan_before`), and a text that goes on behind the token
in another way has a token of the same class in its place, if it has tokens at all (`scan_behind`):
the last lexeme may be longer, but it starts where it did and is of its class.

Result:
* **`compile_blames`**: in front of the token that is named nothing is wrong but that the text
  ends, and with the token nothing can be put right behind it; where none is named, the text is the
  beginning of one that compiles.
-/

namespace CallNotation

/-! ## Cutting in front of a token, and behind it -/

/-- The text in front of a token has the tokens in front of it. -/
theorem scan_before {source : Text} {us vs : List Token} {t : Token}
    (h : scan source = .ok (us ++ t :: vs)) :
    0 ≤ t.position ∧ t.position < source.length ∧
      scan (source.take t.position.toNat) = .ok us := by
  obtain ⟨n, hd⟩ := scan_eq_ok_iff.mp h
  have hread := Token.reading_iff.mpr hd
  have hv := hread.valid t (List.mem_append_right us List.mem_cons_self)
  obtain ⟨a, b, rfl, hpos, -, -, ha, -⟩ := hread.split rfl
  rw [Nat.zero_add] at hpos
  have hlen : 0 < t.lexeme.text.length := List.length_pos_iff.mpr (Lexeme.text_ne_nil hv)
  refine ⟨by omega, ?_, ?_⟩
  · simp only [List.length_append]
    omega
  · rw [hpos, Int.toNat_natCast, List.take_left]
    exact scan_eq_ok_iff.mpr ⟨_, ha⟩

/-- A text that is the same up to the end of a token has a token of the same class there, if it has
tokens at all. -/
theorem scan_behind {source source' : Text} {us vs : List Token} {t : Token}
    (h : scan source = .ok (us ++ t :: vs)) (hpre : source.take t.stop.toNat <+: source') :
    (∃ g, scan source' = .error g) ∨
      ∃ u ws, scan source' = .ok (us ++ u :: ws) ∧ u.kind = t.kind := by
  obtain ⟨n, hd⟩ := scan_eq_ok_iff.mp h
  have hread := Token.reading_iff.mpr hd
  have hv := hread.valid t (List.mem_append_right us List.mem_cons_self)
  obtain ⟨a, b, rfl, hpos, hab, -, ha, -⟩ := hread.split rfl
  have hstop : t.stop.toNat = (a ++ t.lexeme.text).length := by
    rw [Token.stop, hpos, List.length_append]
    omega
  rw [hstop, ← List.append_assoc, List.take_left] at hpre
  obtain ⟨r, rfl⟩ := hpre
  obtain ⟨m, s, hm, hkind, hms, hs⟩ := Lexeme.exists_longest hv r
  rw [Text.apart_append_right (Lexeme.text_ne_nil hv)] at hab
  have har : Text.Apart a (t.lexeme.text ++ r) :=
    (Text.apart_append_right (Lexeme.text_ne_nil hv)).mpr hab
  have hread' := (Token.reading_iff.mpr ha).append rfl har
  rw [hms, Token.drain_text hm hs, ← hms, ← List.append_assoc] at hread'
  cases hrest : Token.drain (0 + a.length + m.text.length) s with
  | mk ws fault? n' =>
    rw [hrest] at hread'
    cases fault? with
    | none => exact .inr ⟨_, ws, scan_eq_ok_iff.mpr ⟨n', hread'⟩, hkind⟩
    | some g => exact .inl ⟨g, scan_eq_error_iff.mpr ⟨_, n', hread'⟩⟩

/-! ## Going on behind the text -/

/-- Lexemes with a blank in front of each. -/
def Lexeme.spaced (ls : List Lexeme) : Text :=
  ls.flatMap fun l => ' ' :: l.text

theorem Lexeme.layout_spaced {R : Token.Kind → Token.Kind → Prop} (ls : List Lexeme)
    (k : Option Token.Kind) : Layout R k ls (spaced ls) := by
  induction ls generalizing k with
  | nil => exact .nil (fun c hc => absurd hc List.not_mem_nil)
  | cons l ls ih =>
    refine .cons (g := [' ']) ?_ (fun _ _ _ => List.cons_ne_nil _ _) (ih _)
    decide

/-- Behind a text that has tokens, lexemes can be added. -/
theorem Text.Spells.append_spaced {source : Text} {ls ms : List Lexeme} (h : source.Spells ls)
    (hv : ∀ l ∈ ms, l.Valid) : (source ++ Lexeme.spaced ms).Spells (ls ++ ms) := by
  refine h.append ((Lexeme.layout_spaced ms none).spells hv) ?_
  cases ms with
  | nil => exact Text.apart_nil_right source
  | cons l ms =>
    have hblank : Text.Blank [' '] := by decide
    rw [Lexeme.spaced, List.flatMap_cons]
    exact (Text.apart_append_right (b := [' ']) (List.cons_ne_nil _ _)).mpr
      (Text.apart_of_blank_right source hblank)

/-! ## The earliest place -/

/-- **No token in front of this one is at fault, and this one is.** -/
structure Token.Blamed (source : Text) (t : Token) : Prop where
  /-- The token stands in the text. -/
  inside : 0 ≤ t.position ∧ t.position < source.length
  /-- Up to the token the text compiles, or it only ends too early. -/
  before : (∃ output, compile (source.take t.position.toNat) = .ok output) ∨
    ∃ expected, compile (source.take t.position.toNat) = .error (.unexpectedEnd expected)
  /-- With the token, no text compiles, whatever stands behind. -/
  behind : ∀ source', source.take t.stop.toNat <+: source' → ∃ f, compile source' = .error f

/-- **Faults are found at the earliest place.** If a text has tokens and does not compile, then a
fault that names an offset names that of a token which no text can have there, and up to which
nothing is wrong; and a fault that names none says that the text ends too early: there is one that
begins with it and compiles. -/
theorem compile_blames {source : Text} {ts : List Token} {f : Fault}
    (hs : scan source = .ok ts) (hf : compile source = .error f) :
    (∀ position, f.position = some position →
      ∃ t ∈ ts, t.position = position ∧ t.Blamed source) ∧
    (f.position = none →
      (∃ expected, f = .unexpectedEnd expected) ∧
        ∃ source', source <+: source' ∧ ∃ output, compile source' = .ok output) := by
  have hp : parse ts = .error f := by
    rcases compile_eq_error_iff.mp hf with h | ⟨us, hus, h⟩
    · rw [hs] at h
      cases h
    · rw [hs] at hus
      cases hus
      exact h
  rcases parseWithin_error_cases hp with ⟨us, t, vs, rfl, hpos, hbefore, hbehind⟩ |
    ⟨⟨expected, rfl⟩, ls, p, hv, hplain, hwithin⟩
  · obtain ⟨h0, hlt, hus⟩ := scan_before hs
    refine ⟨fun position h => ?_, fun h => by rw [hpos] at h; cases h⟩
    rw [hpos] at h
    refine ⟨t, List.mem_append_right us List.mem_cons_self, Option.some.inj h,
      ⟨h0, hlt⟩, ?_, fun source' hpre => ?_⟩
    · cases hp' : parse us with
      | ok p => exact .inl ⟨_, compile_eq_ok_iff.mpr ⟨us, p, hus, hp', rfl⟩⟩
      | error g =>
        obtain ⟨expected, rfl⟩ := hbefore g hp'
        exact .inr ⟨expected, compile_eq_error_iff.mpr (.inr ⟨us, hus, hp'⟩)⟩
    · rcases scan_behind hs hpre with ⟨g, hg⟩ | ⟨u, ws, hu, hkind⟩
      · exact ⟨g, compile_eq_error_iff.mpr (.inl hg)⟩
      · obtain ⟨g, hg⟩ := hbehind u ws hkind
        exact ⟨g, compile_eq_error_iff.mpr (.inr ⟨_, hu, hg⟩)⟩
  · refine ⟨fun position h => (nomatch h), fun _ => ⟨⟨expected, rfl⟩, ?_⟩⟩
    have hspells : source.Spells (ts.map Token.lexeme) := ⟨ts, hs, rfl⟩
    obtain ⟨us, hus, hlex⟩ := hspells.append_spaced hv
    rw [map_plain_of_scan hs] at hplain
    refine ⟨_, List.prefix_append source _, _, compile_eq_ok_iff.mpr ⟨us, p, hus, ?_, rfl⟩⟩
    exact (parse_eq_ok_iff_of_scan hus).mpr ⟨hlex.trans hplain, hwithin⟩

/-- In `(f ("a b" c` the string is to blame, since a name must stand there. -/
theorem compile_blames_string :
    ∃ ts, scan "(f (\"a b\" c".toList = .ok ts ∧
      compile "(f (\"a b\" c".toList = .error (.missingCallee "STRING 'a b'" (some 4)) ∧
      ∃ t ∈ ts, t.position = 4 ∧ t.Blamed "(f (\"a b\" c".toList := by
  have hs : scan "(f (\"a b\" c".toList = .ok [⟨.lparen, "(".toList, 0⟩, ⟨.name, "f".toList, 1⟩,
      ⟨.lparen, "(".toList, 3⟩, ⟨.string, "a b".toList, 4⟩, ⟨.name, "c".toList, 10⟩] := by
    decide +kernel
  have hf : compile "(f (\"a b\" c".toList = .error (.missingCallee "STRING 'a b'" (some 4)) := by
    decide +kernel
  exact ⟨_, hs, hf, (compile_blames hs hf).1 4 rfl⟩

end CallNotation
