import CallNotation.Store.Basic
import Mathlib.Data.List.Flatten

/-!
# Where paths lead

A path is looked up part by part, and each part that is followed is looked up in a directory. So
the parts that lead nowhere can be left out, which is what the normal form of a path does, and a
change to a file changes no path that leads on.

Results:
* **`Store.locate_normalizePath`**: where a path leads somewhere, its normal form leads there too.
* `Store.locate_of_normalizePath`: the converse, for directories, where all may be searched.
* **`Store.Extends.locate`**: a path leads to the same place in a store that has all the
  directories.
-/

namespace CallNotation

/-! ## Parts of a path -/

theorem splitSlash_ne_nil (t : Text) : splitSlash t ≠ [] := by
  cases t with
  | nil => exact List.cons_ne_nil _ _
  | cons c t =>
    rw [splitSlash]
    split
    · exact List.cons_ne_nil _ _
    · split <;> exact List.cons_ne_nil _ _

theorem splitSlash_slash (t : Text) : splitSlash ('/' :: t) = [] :: splitSlash t := by
  rw [splitSlash, if_pos rfl]

theorem splitSlash_cons {c : Char} (hc : c ≠ '/') {t part : Text} {parts : List Text}
    (ht : splitSlash t = part :: parts) : splitSlash (c :: t) = (c :: part) :: parts := by
  rw [splitSlash, if_neg hc, ht]

/-- The parts of a path are what `List.splitOn` gives. -/
theorem splitSlash_eq_splitOn (t : Text) : splitSlash t = t.splitOn '/' := by
  induction t with
  | nil => rfl
  | cons c t ih =>
    rw [List.splitOn, List.splitOnP_cons_eq_if_modifyHead, ← List.splitOn, ← ih]
    by_cases hc : c = '/'
    · rw [hc, splitSlash_slash, if_pos (beq_self_eq_true _)]
    · obtain ⟨part, parts, ht⟩ := List.exists_cons_of_ne_nil (splitSlash_ne_nil t)
      rw [splitSlash_cons hc ht, if_neg (mt eq_of_beq hc), ht]
      rfl

theorem slash_not_mem_part (t : Text) : ∀ part ∈ splitSlash t, '/' ∉ part := by
  induction t with
  | nil => exact List.forall_mem_singleton.mpr List.not_mem_nil
  | cons c t ih =>
    by_cases hc : c = '/'
    · rw [hc, splitSlash_slash]
      exact List.forall_mem_cons.mpr ⟨List.not_mem_nil, ih⟩
    · obtain ⟨part, parts, ht⟩ := List.exists_cons_of_ne_nil (splitSlash_ne_nil t)
      rw [ht, List.forall_mem_cons] at ih
      rw [splitSlash_cons hc ht]
      exact List.forall_mem_cons.mpr
        ⟨List.not_mem_cons_of_ne_of_not_mem (Ne.symm hc) ih.1, ih.2⟩

theorem intercalate_splitSlash (t : Text) : List.intercalate ['/'] (splitSlash t) = t := by
  rw [splitSlash_eq_splitOn]
  exact List.intercalate_splitOn '/'

theorem splitSlash_intercalate {parts : List Text} (h : ∀ part ∈ parts, '/' ∉ part)
    (hne : parts ≠ []) : splitSlash (List.intercalate ['/'] parts) = parts := by
  rw [splitSlash_eq_splitOn]
  exact List.splitOn_intercalate '/' h hne

/-- Leaving parts out leaves characters out. -/
theorem intercalate_filter_sublist (keeps : Text → Bool) (parts : List Text) :
    (List.intercalate ['/'] (parts.filter keeps)).Sublist (List.intercalate ['/'] parts) := by
  induction parts with
  | nil => exact .slnil
  | cons part parts ih =>
    by_cases hparts : parts = []
    · subst hparts
      by_cases hpart : keeps part = true
      · rw [List.filter_cons_of_pos hpart]
        exact .refl _
      · rw [List.filter_cons_of_neg hpart]
        exact List.nil_sublist _
    · rw [List.intercalate_cons_of_ne_nil hparts]
      by_cases hpart : keeps part = true
      · rw [List.filter_cons_of_pos hpart]
        by_cases hnil : parts.filter keeps = []
        · rw [hnil, List.intercalate_singleton, List.append_assoc]
          exact List.sublist_append_left _ _
        · rw [List.intercalate_cons_of_ne_nil hnil]
          exact ih.append_left _
      · rw [List.filter_cons_of_neg hpart]
        exact List.sublist_append_of_sublist_right ih

/-! ## The normal form -/

/-- The parts of a path that lead somewhere. -/
def leadingParts (t : Text) : List Text :=
  (splitSlash t).filter fun part => !isIdlePart part

theorem leadingParts_slash (t : Text) : leadingParts ('/' :: t) = leadingParts t := by
  rw [leadingParts, splitSlash_slash]
  rfl

theorem leadingParts_slashes (n : Nat) (u : Text) :
    leadingParts (List.replicate n '/' ++ u) = leadingParts u := by
  induction n with
  | zero => rfl
  | succ n ih => rw [List.replicate_succ, List.cons_append, leadingParts_slash, ih]

theorem ne_nil_of_mem_leadingParts {t part : Text} (h : part ∈ leadingParts t) : part ≠ [] := by
  rintro rfl
  exact absurd (List.mem_filter.mp h).2 (by decide)

/-- The parts that lead somewhere can be read off the text that joins them. -/
theorem splitSlash_leadingParts {t : Text} (h : leadingParts t ≠ []) :
    splitSlash (List.intercalate ['/'] (leadingParts t)) = leadingParts t :=
  splitSlash_intercalate
    (fun part hpart => slash_not_mem_part t part (List.mem_filter.mp hpart).1) h

theorem toList_normalizePath (path : String) :
    (normalizePath path).toList =
      if pathRoot path.toList = [] ∧ leadingParts path.toList = [] then ['.']
      else pathRoot path.toList ++ List.intercalate ['/'] (leadingParts path.toList) := by
  unfold normalizePath leadingParts
  simp only
  split
  · rfl
  · exact String.toList_ofList

/-- A path starts with nothing, or with some of the slashes that it begins with. -/
theorem pathRoot_cases (t : Text) :
    (pathRoot t = [] ∧ t.head? ≠ some '/') ∨
      ∃ n u, pathRoot t = List.replicate (n + 1) '/' ∧ t = List.replicate (n + 1) '/' ++ u := by
  unfold pathRoot
  split
  · exact .inr ⟨0, _, rfl, rfl⟩
  · exact .inr ⟨1, _, rfl, rfl⟩
  · exact .inr ⟨0, _, rfl, rfl⟩
  · rename_i hslash
    refine .inl ⟨rfl, fun h => ?_⟩
    cases t with
    | nil => cases h
    | cons c t =>
      cases h
      exact hslash t rfl

/-- The normal form leaves characters out, unless nothing is left. -/
theorem normalizePath_cases (path : String) :
    (normalizePath path).toList = ['.'] ∨ (normalizePath path).toList.Sublist path.toList := by
  have hparts (u : Text) : (List.intercalate ['/'] (leadingParts u)).Sublist u := by
    have h := intercalate_filter_sublist (fun part => !isIdlePart part) (splitSlash u)
    rwa [intercalate_splitSlash] at h
  rw [toList_normalizePath]
  split
  · exact .inl rfl
  · refine .inr ?_
    rcases pathRoot_cases path.toList with ⟨hroot, -⟩ | ⟨n, u, hroot, ht⟩
    · rw [hroot]
      exact hparts _
    · rw [hroot]
      generalize path.toList = t at ht
      rw [ht, leadingParts_slashes]
      exact (hparts u).append_left _

theorem toList_normalizePath_ne_nil (path : String) : (normalizePath path).toList ≠ [] := by
  rw [toList_normalizePath]
  split
  · exact List.cons_ne_nil _ _
  · rename_i hparts
    intro hnil
    obtain ⟨hroot, hjoined⟩ := List.append_eq_nil_iff.mp hnil
    have hlead : leadingParts path.toList ≠ [] := fun h => hparts ⟨hroot, h⟩
    have hsplit := splitSlash_leadingParts hlead
    rw [hjoined] at hsplit
    have hmem : [] ∈ leadingParts path.toList := by
      rw [← hsplit]
      exact List.mem_cons_self
    exact ne_nil_of_mem_leadingParts hmem rfl

/-! ## Following parts -/

namespace Store

variable {s s' : Store} {l l' : Location} {part : Text} {parts : List Text} {rights : Rights}

theorem entry?_root (s : Store) : s.entry? [] = some (.directory s.root) :=
  if_pos rfl

/-- The part can be looked up at the location. -/
def LooksUp (s : Store) (l : Location) (part : Text) : Prop :=
  ∃ rights, s.entry? l = some (.directory rights) ∧ (part = [] ∨ rights.searchable = true) ∧
    byteLength part ≤ nameLimit

/-- There is nothing to be looked up of an empty part, if there is a directory. -/
theorem looksUp_nil (hdir : s.entry? l = some (.directory rights)) : s.LooksUp l [] :=
  ⟨rights, hdir, .inl rfl, Nat.zero_le _⟩

theorem follow_cons_of (h : s.LooksUp l part) (parts : List Text) :
    s.follow l (part :: parts) = s.follow (l.step part) parts := by
  obtain ⟨rights, hdir, hsearch, hshort⟩ := h
  have hallowed : ¬ (part ≠ [] ∧ rights.searchable = false) := fun ⟨hne, hno⟩ =>
    hsearch.elim hne fun hyes => absurd (hyes.symm.trans hno) (by decide)
  rw [follow, hdir]
  simp only
  rw [if_neg hallowed, if_neg (Nat.not_lt.mpr hshort)]

/-- **Parts that lead somewhere are followed from a directory** in which the first is looked up. -/
theorem follow_cons_eq_ok (h : s.follow l (part :: parts) = .ok l') :
    s.LooksUp l part ∧ s.follow (l.step part) parts = .ok l' := by
  rw [follow] at h
  split at h
  · rename_i rights hdir
    split at h
    · cases h
    rename_i hallowed
    split at h
    · cases h
    rename_i hshort
    refine ⟨⟨rights, hdir, ?_, Nat.not_lt.mp hshort⟩, h⟩
    by_cases hpart : part = []
    · exact .inl hpart
    · exact .inr (Bool.of_not_eq_false fun hno => hallowed ⟨hpart, hno⟩)
  · cases h
  · cases h

/-- An empty part leads from a directory to the directory. -/
theorem follow_empty (hdir : s.entry? l = some (.directory rights)) (parts : List Text) :
    s.follow l ([] :: parts) = s.follow l parts :=
  follow_cons_of (looksUp_nil hdir) parts

/-- **Idle parts can be left out.** -/
theorem follow_filter (h : s.follow l parts = .ok l') :
    s.follow l (parts.filter fun part => !isIdlePart part) = .ok l' := by
  induction parts generalizing l with
  | nil => exact h
  | cons part parts ih =>
    obtain ⟨hlook, h⟩ := follow_cons_eq_ok h
    cases hidle : isIdlePart part with
    | true =>
      rw [List.filter_cons_of_neg (by rw [hidle]; decide)]
      rw [Location.step, if_pos hidle] at h
      exact ih h
    | false =>
      rw [List.filter_cons_of_pos (by rw [hidle]; rfl), follow_cons_of hlook]
      exact ih h

/-- Parts that lead to a directory start at a directory. -/
theorem directory_of_follow (h : s.follow l parts = .ok l')
    (hdir : s.entry? l' = some (.directory rights)) :
    ∃ rights, s.entry? l = some (.directory rights) := by
  cases parts with
  | nil =>
    cases h
    exact ⟨rights, hdir⟩
  | cons part parts =>
    obtain ⟨⟨rights, hdir, -⟩, -⟩ := follow_cons_eq_ok h
    exact ⟨rights, hdir⟩

/-- All directories may be searched. -/
def Searchable (s : Store) : Prop :=
  ∀ l rights, s.entry? l = some (.directory rights) → rights.searchable = true

/-- **Where a directory is reached, idle parts can be put in.** -/
theorem follow_of_filter (hs : s.Searchable) (hdir : s.entry? l' = some (.directory rights))
    (h : s.follow l (parts.filter fun part => !isIdlePart part) = .ok l') :
    s.follow l parts = .ok l' := by
  induction parts generalizing l with
  | nil => exact h
  | cons part parts ih =>
    cases hidle : isIdlePart part with
    | true =>
      rw [List.filter_cons_of_neg (by rw [hidle]; decide)] at h
      obtain ⟨rights, hl⟩ := directory_of_follow h hdir
      have hshort : byteLength part ≤ nameLimit := by
        simp only [isIdlePart, Bool.or_eq_true, decide_eq_true_eq] at hidle
        rcases hidle with rfl | rfl <;> decide
      rw [follow_cons_of ⟨rights, hl, .inr (hs l rights hl), hshort⟩, Location.step, if_pos hidle]
      exact ih h
    | false =>
      rw [List.filter_cons_of_pos (by rw [hidle]; rfl)] at h
      obtain ⟨hlook, h⟩ := follow_cons_eq_ok h
      rw [follow_cons_of hlook]
      exact ih h

/-- The directories of one store are directories of the other, and the working directory is the
same. -/
structure Extends (s s' : Store) : Prop where
  directory : ∀ l rights, s.entry? l = some (.directory rights) →
    s'.entry? l = some (.directory rights)
  working : s'.working = s.working

/-- **Parts lead to the same place in a store that has all the directories.** -/
theorem Extends.follow (hs : s.Extends s') (h : s.follow l parts = .ok l') :
    s'.follow l parts = .ok l' := by
  induction parts generalizing l with
  | nil => exact h
  | cons part parts ih =>
    obtain ⟨⟨rights, hdir, hsearch, hshort⟩, h⟩ := follow_cons_eq_ok h
    rw [follow_cons_of ⟨rights, hs.directory l rights hdir, hsearch, hshort⟩]
    exact ih h

/-! ## Following a path -/

/-- Where the parts of a path are followed from. -/
def startOf (s : Store) : List Text → Location
  | [] :: _ => []
  | _ => s.working

theorem locate_eq {path : String} (hnull : '\x00' ∉ path.toList)
    (hshort : byteLength path.toList ≤ pathLimit) (hne : path.toList ≠ []) :
    s.locate path = s.follow (s.startOf (splitSlash path.toList)) (splitSlash path.toList) := by
  rw [locate, if_neg hnull, if_neg (Nat.not_lt.mpr hshort)]
  generalize path.toList = t at hne
  cases t with
  | nil => exact absurd rfl hne
  | cons c t =>
    obtain ⟨part, parts, ht⟩ := List.exists_cons_of_ne_nil (splitSlash_ne_nil t)
    by_cases hc : c = '/'
    · rw [hc, splitSlash_slash, ht]
      exact (follow_empty s.entry?_root _).symm
    · rw [splitSlash_cons hc ht]
      rfl

/-- A path that leads somewhere is one that the system takes. -/
theorem of_locate_eq_ok {path : String} (h : s.locate path = .ok l) :
    '\x00' ∉ path.toList ∧ byteLength path.toList ≤ pathLimit ∧ path.toList ≠ [] := by
  rw [locate] at h
  split at h
  · cases h
  · rename_i hnull
    split at h
    · cases h
    · rename_i hshort
      refine ⟨hnull, Nat.not_lt.mp hshort, fun hnil => ?_⟩
      rw [hnil] at h
      cases h

theorem Extends.locate (hs : s.Extends s') {path : String} (h : s.locate path = .ok l) :
    s'.locate path = .ok l := by
  obtain ⟨hnull, hshort, hne⟩ := of_locate_eq_ok h
  have hstart (parts : List Text) : s'.startOf parts = s.startOf parts := by
    unfold startOf
    split
    · rfl
    · exact hs.working
  rw [locate_eq hnull hshort hne] at h ⊢
  rw [hstart]
  exact hs.follow h

/-- Slashes lead from a directory to the directory. -/
theorem follow_slashes (hdir : s.entry? l = some (.directory rights)) (n : Nat) (u : Text) :
    s.follow l (splitSlash (List.replicate n '/' ++ u)) = s.follow l (splitSlash u) := by
  induction n with
  | zero => rfl
  | succ n ih =>
    rw [List.replicate_succ, List.cons_append, splitSlash_slash, follow_empty hdir, ih]

theorem follow_leadingParts (hdir : s.entry? l = some (.directory rights)) (t : Text) :
    s.follow l (splitSlash (List.intercalate ['/'] (leadingParts t))) =
      s.follow l (leadingParts t) := by
  by_cases hnil : leadingParts t = []
  · rw [hnil]
    exact follow_empty hdir []
  · rw [splitSlash_leadingParts hnil]

theorem startOf_slashes (s : Store) (n : Nat) (u : Text) :
    s.startOf (splitSlash (List.replicate (n + 1) '/' ++ u)) = [] := by
  rw [List.replicate_succ, List.cons_append, splitSlash_slash]
  rfl

/-- Where a path is followed from is told by its first character. -/
theorem startOf_splitSlash {t : Text} (h : t.head? ≠ some '/') (hne : t ≠ []) :
    s.startOf (splitSlash t) = s.working := by
  cases t with
  | nil => exact absurd rfl hne
  | cons c t =>
    obtain ⟨part, parts, ht⟩ := List.exists_cons_of_ne_nil (splitSlash_ne_nil t)
    rw [splitSlash_cons (fun hc => h (congrArg some hc)) ht]
    rfl

theorem startOf_leadingParts (s : Store) (t : Text) :
    s.startOf (leadingParts t) = s.working := by
  unfold startOf
  split
  · rename_i parts hparts
    exact absurd rfl (ne_nil_of_mem_leadingParts (hparts ▸ List.mem_cons_self))
  · rfl

/-- The first part of a path that does not start at the root and leads nowhere is a dot. -/
theorem splitSlash_of_leadingParts_eq_nil {t : Text} (h : t.head? ≠ some '/') (hne : t ≠ [])
    (hnil : leadingParts t = []) : ∃ parts, splitSlash t = ['.'] :: parts := by
  cases t with
  | nil => exact absurd rfl hne
  | cons c t =>
    obtain ⟨part, parts, ht⟩ := List.exists_cons_of_ne_nil (splitSlash_ne_nil t)
    have hsplit := splitSlash_cons (fun hc => h (congrArg some hc)) ht
    have hidle := List.filter_eq_nil_iff.mp hnil (c :: part) (hsplit ▸ List.mem_cons_self)
    have hdot : c :: part = ['.'] := by simpa [isIdlePart] using hidle
    exact ⟨parts, hdot ▸ hsplit⟩

/-- **The normal form of a path** is followed as the parts that lead somewhere are, but that the
normal form of a path without them is a dot. -/
theorem follow_normalizePath {path : String} (hne : path.toList ≠ []) :
    (path.toList.head? ≠ some '/' ∧ leadingParts path.toList = [] ∧
      (normalizePath path).toList = ['.']) ∨
    ∀ s : Store, s.follow (s.startOf (splitSlash (normalizePath path).toList))
        (splitSlash (normalizePath path).toList) =
      s.follow (s.startOf (splitSlash path.toList)) (leadingParts path.toList) := by
  rw [toList_normalizePath]
  generalize path.toList = t at hne
  rcases pathRoot_cases t with ⟨hroot, hhead⟩ | ⟨n, u, hroot, rfl⟩
  · rw [hroot]
    by_cases hnil : leadingParts t = []
    · exact .inl ⟨hhead, hnil, if_pos ⟨rfl, hnil⟩⟩
    · refine .inr fun s => ?_
      rw [if_neg fun h => hnil h.2, List.nil_append, splitSlash_leadingParts hnil,
        startOf_leadingParts, startOf_splitSlash hhead hne]
  · rw [hroot, if_neg fun h => nomatch h.1]
    refine .inr fun s => ?_
    rw [startOf_slashes, startOf_slashes, follow_slashes s.entry?_root,
      follow_leadingParts s.entry?_root]

theorem byteLength_mono {a b : Text} (h : a.Sublist b) : byteLength a ≤ byteLength b :=
  (h.flatMap String.utf8EncodeChar).length_le

theorem not_mem_normalizePath {path : String} (h : '\x00' ∉ path.toList) :
    '\x00' ∉ (normalizePath path).toList := by
  rcases normalizePath_cases path with hdot | hsub
  · rw [hdot]
    decide
  · exact fun hmem => h (hsub.mem hmem)

theorem byteLength_normalizePath {path : String} (h : byteLength path.toList ≤ pathLimit) :
    byteLength (normalizePath path).toList ≤ pathLimit := by
  rcases normalizePath_cases path with hdot | hsub
  · rw [hdot]
    decide
  · exact Nat.le_trans (byteLength_mono hsub) h

/-- The normal form of a path that the system takes is followed by its parts. -/
theorem locate_normalizePath_eq {path : String} (hnull : '\x00' ∉ path.toList)
    (hshort : byteLength path.toList ≤ pathLimit) :
    s.locate (normalizePath path) =
      s.follow (s.startOf (splitSlash (normalizePath path).toList))
        (splitSlash (normalizePath path).toList) :=
  locate_eq (not_mem_normalizePath hnull) (byteLength_normalizePath hshort)
    (toList_normalizePath_ne_nil path)

/-- A dot leads to the working directory. -/
theorem follow_dot : s.follow s.working (splitSlash ['.']) = .ok l ↔
    s.LooksUp s.working ['.'] ∧ l = s.working := by
  constructor
  · intro h
    obtain ⟨hlook, h⟩ := follow_cons_eq_ok h
    exact ⟨hlook, (Except.ok.inj h).symm⟩
  · rintro ⟨hlook, rfl⟩
    exact follow_cons_of hlook []

/-- **The normal form of a path leads to the same place.** -/
theorem locate_normalizePath {path : String} (h : s.locate path = .ok l) :
    s.locate (normalizePath path) = .ok l := by
  obtain ⟨hnull, hshort, hne⟩ := of_locate_eq_ok h
  rw [locate_eq hnull hshort hne] at h
  rw [locate_normalizePath_eq hnull hshort]
  rcases follow_normalizePath hne with ⟨hhead, hnil, hdot⟩ | heq
  · rw [startOf_splitSlash hhead hne] at h
    have hworking := follow_filter h
    obtain ⟨parts, hparts⟩ := splitSlash_of_leadingParts_eq_nil hhead hne hnil
    rw [hparts] at h
    rw [← leadingParts, hnil] at hworking
    rw [hdot]
    exact follow_dot.mpr ⟨(follow_cons_eq_ok h).1, (Except.ok.inj hworking).symm⟩
  · rw [heq]
    exact follow_filter h

/-- A path leads to the same directory as its normal form, if it is one for the system to follow and
all directories may be searched. -/
theorem locate_of_normalizePath (hs : s.Searchable) {path : String} (hnull : '\x00' ∉ path.toList)
    (hshort : byteLength path.toList ≤ pathLimit) (hne : path.toList ≠ [])
    (hdir : s.entry? l = some (.directory rights)) (h : s.locate (normalizePath path) = .ok l) :
    s.locate path = .ok l := by
  rw [locate_normalizePath_eq hnull hshort] at h
  rw [locate_eq hnull hshort hne]
  refine follow_of_filter hs hdir ?_
  rcases follow_normalizePath hne with ⟨hhead, hnil, hdot⟩ | heq
  · rw [hdot] at h
    rw [startOf_splitSlash hhead hne, ← leadingParts, hnil, (follow_dot.mp h).2]
    rfl
  · rw [heq] at h
    exact h

/-- What a path leads to is found by its normal form. -/
theorem find_normalizePath {path : String} {e : Entry} (h : s.find path = .ok e) :
    s.find (normalizePath path) = .ok e := by
  unfold Store.find at h ⊢
  cases hl : s.locate path with
  | error fault =>
    rw [hl] at h
    cases h
  | ok l =>
    rw [hl] at h
    rw [locate_normalizePath hl]
    exact h

end Store

end CallNotation
