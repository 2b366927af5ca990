import CallNotation.Proofs.Store.Place

/-!
# What writing changes

A file is written where its path leads, and there is no directory. `Store.Saved` says all that
comes of it: the file has the new content, and every other entry is as it was. No directory is
touched, so every path leads where it led before and the content is found again.

Results:
* **`Store.write_saved`**: writing saves.
* **`Store.Saved.find`**: what was saved is found by the path that it was saved by.
* `Store.write_of_write`: whether a path can be written to does not depend on the content.
* `Store.find_ne_directory_of_write`: a path in any form can be written to only where it leads to
  no directory.
* `Store.write_eq_error`: what stops a path from being written to where nothing is restricted.
-/

namespace CallNotation

/-- What may be done with an entry. -/
def Entry.rights : Entry → Rights
  | directory rights => rights
  | file rights _ => rights

namespace Store

variable {s s' : Store} {l : Location} {path : String} {content : Bytes} {rights : Rights}

/-! ## One entry -/

/-- Entries elsewhere are found as if the ones at `l` were not there. -/
theorem lookup_filter_ne {l' : Location} (h : l' ≠ l) (entries : List (Location × Entry)) :
    (entries.filter (·.1 ≠ l)).lookup l' = entries.lookup l' := by
  induction entries with
  | nil => rfl
  | cons e entries ih =>
    by_cases he : e.1 = l
    · have hne : (l' == e.1) = false := beq_eq_false_iff_ne.mpr (he ▸ h)
      rw [List.filter_cons_of_neg (by simp [he]), List.lookup_cons, hne, ih]
    · rw [List.filter_cons_of_pos (by simp [he]), List.lookup_cons, List.lookup_cons, ih]

theorem entry?_put_self (h : l ≠ []) (e : Entry) : Store.entry? (s.put l e) l = some e := by
  unfold entry? put
  rw [if_neg h, List.lookup_cons, beq_self_eq_true]

theorem entry?_put_of_ne {l' : Location} (h : l' ≠ l) (e : Entry) :
    Store.entry? (s.put l e) l' = s.entry? l' := by
  unfold entry? put
  rw [List.lookup_cons, beq_eq_false_iff_ne.mpr h]
  simp only [lookup_filter_ne h]

/-- There is no directory where a file can be placed, and a file that is there keeps its rights. -/
theorem placing_eq_ok (h : s.placing l = .ok rights) :
    (∀ r, s.entry? l ≠ some (.directory r)) ∧
      ∀ r c, s.entry? l = some (.file r c) → r = rights := by
  unfold placing at h
  split at h
  · cases h
  · rename_i r c hl
    split at h
    · cases h
      simp [hl]
    · cases h
  · rename_i hl
    simp [hl]

/-! ## What writing changes -/

/-- The store `s'` is the store `s` with a file of the given content at a location. -/
structure SavedAt (s s' : Store) (l : Location) (content : Bytes) : Prop where
  /-- No directory is replaced. -/
  free : ∀ rights, s.entry? l ≠ some (.directory rights)
  /-- The file is there, with the rights of the file that was there. -/
  here : ∃ rights, s'.entry? l = some (.file rights content) ∧
    ∀ r c, s.entry? l = some (.file r c) → r = rights
  /-- Nothing else is changed. -/
  elsewhere : ∀ l', l' ≠ l → s'.entry? l' = s.entry? l'
  /-- The working directory is the same. -/
  working : s'.working = s.working

/-- **The store `s'` is the store `s` with a file of the given content where a path leads.** -/
def Saved (s s' : Store) (path : String) (content : Bytes) : Prop :=
  ∃ l, s.locate path = .ok l ∧ s.SavedAt s' l content

/-- Saving leaves directories as they are. -/
theorem SavedAt.extends (h : s.SavedAt s' l content) : s.Extends s' where
  directory l' rights hdir := by
    have hne : l' ≠ l := by
      rintro rfl
      exact h.free rights hdir
    rw [h.elsewhere l' hne, hdir]
  working := h.working

/-- **What was saved is found again.** -/
theorem Saved.find (h : s.Saved s' path content) :
    ∃ rights, s'.find path = .ok (.file rights content) := by
  obtain ⟨l, hl, hsaved⟩ := h
  obtain ⟨rights, hhere, -⟩ := hsaved.here
  rw [Store.find, hsaved.extends.locate hl]
  simp only [hhere]
  exact ⟨rights, rfl⟩

theorem read_of_find (h : s.find path = .ok (.file rights content)) :
    s.read path = if rights.readable then .ok content else .error .denied := by
  rw [Store.read, h]

/-- A file that is read is there and may be read. -/
theorem read_eq_ok_iff : s.read path = .ok content ↔
    ∃ rights, s.find path = .ok (.file rights content) ∧ rights.readable = true := by
  constructor
  · intro h
    unfold Store.read at h
    split at h
    · cases h
    · cases h
    · rename_i rights c hfind
      split at h
      · rename_i hreadable
        cases h
        exact ⟨rights, hfind, hreadable⟩
      · cases h
  · rintro ⟨rights, hfind, hreadable⟩
    rw [read_of_find hfind, if_pos hreadable]

theorem read_normalizePath (h : s.read path = .ok content) :
    s.read (normalizePath path) = .ok content := by
  obtain ⟨rights, hfind, hreadable⟩ := read_eq_ok_iff.mp h
  exact read_eq_ok_iff.mpr ⟨rights, find_normalizePath hfind, hreadable⟩

/-- Where something is written, a path leads there and a file can be placed there. -/
theorem write_eq_ok_iff :
    s.write path content = .ok s' ↔
      ∃ l rights, s.locate path = .ok l ∧ s.placing l = .ok rights ∧
        s' = s.put l (.file rights content) := by
  unfold write
  constructor
  · intro h
    split at h
    · cases h
    · rename_i l hl
      split at h
      · cases h
      · rename_i rights hrights
        exact ⟨l, rights, hl, hrights, (Except.ok.inj h).symm⟩
  · rintro ⟨l, rights, hl, hrights, rfl⟩
    rw [hl]
    simp only [hrights]

/-- Whether a path can be written to does not depend on what is to be written. -/
theorem write_of_write (h : s.write path content = .ok s') (content' : Bytes) :
    ∃ s'', s.write path content' = .ok s'' := by
  obtain ⟨l, rights, hl, hrights, -⟩ := write_eq_ok_iff.mp h
  exact ⟨_, write_eq_ok_iff.mpr ⟨l, rights, hl, hrights, rfl⟩⟩

/-- **Writing saves.** -/
theorem write_saved (h : s.write path content = .ok s') : s.Saved s' path content := by
  obtain ⟨l, rights, hl, hrights, rfl⟩ := write_eq_ok_iff.mp h
  obtain ⟨hfree, hkept⟩ := placing_eq_ok hrights
  have hne : l ≠ [] := by
    rintro rfl
    exact hfree s.root s.entry?_root
  exact ⟨l, hl, hfree, ⟨rights, entry?_put_self hne _, hkept⟩,
    fun l' hl' => entry?_put_of_ne hl' _, rfl⟩

/-! ## Faults -/

/-- What stops parts from being followed. -/
theorem follow_eq_error {parts : List Text} {fault : FileFault}
    (h : s.follow l parts = .error fault) :
    fault = .missing ∨ fault = .notDirectory ∨ fault = .nameTooLong ∨
      fault = .denied ∧ ¬ s.Searchable := by
  induction parts generalizing l with
  | nil => cases h
  | cons part parts ih =>
    rw [follow] at h
    split at h
    · rename_i rights hdir
      split at h
      · rename_i hdenied
        cases h
        exact .inr (.inr (.inr ⟨rfl, fun hs => by simp [hs l rights hdir] at hdenied⟩))
      split at h
      · cases h
        exact .inr (.inr (.inl rfl))
      · exact ih h
    · cases h
      exact .inr (.inl rfl)
    · cases h
      exact .inl rfl

/-- What stops a path from leading somewhere. -/
theorem locate_eq_error {fault : FileFault} (h : s.locate path = .error fault) :
    fault = .nullCharacter ∧ '\x00' ∈ path.toList ∨
      fault = .missing ∨ fault = .notDirectory ∨ fault = .nameTooLong ∨
        fault = .denied ∧ ¬ s.Searchable := by
  rw [locate] at h
  split at h
  · rename_i hnull
    cases h
    exact .inl ⟨rfl, hnull⟩
  split at h
  · cases h
    exact .inr (.inr (.inr (.inl rfl)))
  split at h
  · cases h
    exact .inr (.inl rfl)
  · exact .inr (follow_eq_error h)
  · exact .inr (follow_eq_error h)

theorem find_eq_ok_iff {e : Entry} :
    s.find path = .ok e ↔ ∃ l, s.locate path = .ok l ∧ s.entry? l = some e := by
  unfold Store.find
  cases s.locate path with
  | error fault => simp
  | ok l => cases hl : s.entry? l <;> simp [hl]

/-- A null character in a path is what is told of it. -/
theorem find_eq_nullCharacter_iff :
    s.find path = .error .nullCharacter ↔ '\x00' ∈ path.toList := by
  unfold Store.find
  constructor
  · intro h
    split at h
    · rename_i fault hl
      cases h
      rcases locate_eq_error hl with ⟨-, hmem⟩ | h | h | h | ⟨h, -⟩
      · exact hmem
      all_goals cases h
    · split at h <;> cases h
  · intro hmem
    rw [locate, if_pos hmem]

theorem mem_of_read_eq_nullCharacter (h : s.read path = .error .nullCharacter) :
    '\x00' ∈ path.toList := by
  unfold Store.read at h
  split at h
  · rename_i fault hfind
    cases h
    exact find_eq_nullCharacter_iff.mp hfind
  · split at h <;> cases h
  · split at h <;> cases h

/-- A path that leads to a directory cannot be written to, nor can its normal form. -/
theorem find_ne_directory_of_write (h : s.write (normalizePath path) content = .ok s')
    (rights : Rights) : s.find path ≠ .ok (.directory rights) := by
  intro hfind
  obtain ⟨l, hl, hdir⟩ := find_eq_ok_iff.mp hfind
  obtain ⟨l', rights', hl', hrights, -⟩ := write_eq_ok_iff.mp h
  rw [locate_normalizePath hl] at hl'
  cases hl'
  exact (placing_eq_ok hrights).1 rights hdir

/-! ## Stores without restrictions -/

/-- **Nothing is restricted**: everything may be done with every entry. -/
def Unrestricted (s : Store) : Prop :=
  ∀ l e, s.entry? l = some e → e.rights = {}

theorem Unrestricted.searchable (hs : s.Unrestricted) : s.Searchable := fun l rights hdir => by
  obtain rfl : rights = {} := hs l _ hdir
  rfl

theorem unrestricted_of_entries (hroot : s.root = {})
    (h : ∀ p ∈ s.entries, p.2.rights = {}) : s.Unrestricted := by
  intro l e he
  unfold entry? at he
  split at he
  · cases he
    exact hroot
  · obtain ⟨front, back, hentries, -⟩ := List.lookup_eq_some_iff.mp he
    exact h (l, e) (hentries ▸ List.mem_append_right front List.mem_cons_self)

/-- What stops a file from being placed where nothing is restricted. -/
theorem placing_eq_error (hs : s.Unrestricted) {fault : FileFault}
    (h : s.placing l = .error fault) :
    fault = .missing ∨ fault = .isDirectory ∧ ∃ rights, s.entry? l = some (.directory rights) := by
  unfold placing at h
  split at h
  · rename_i rights hdir
    cases h
    exact .inr ⟨rfl, rights, hdir⟩
  · rename_i rights c hl
    obtain rfl : rights = {} := hs l _ hl
    cases h
  split at h
  · rename_i rights hdir
    obtain rfl : rights = {} := hs _ _ hdir
    cases h
  · cases h
    exact .inl rfl

/-- **Why a path cannot be written to** although no directory is missing. -/
inductive Unwritable (path : String) : FileFault → Prop
  /-- The path goes on behind a file. -/
  | behindFile : Unwritable path .notDirectory
  /-- The path is too long, or a name in it is. -/
  | tooLong : Unwritable path .nameTooLong
  /-- The path is empty, or longer than what is left of it in its normal form, which leads to a
  directory. -/
  | directory (h : path = "" ∨ pathLimit < byteLength path.toList) : Unwritable path .isDirectory

/-- What stops a path from being written to where nothing is restricted, if it does not lead to a
directory as it stands. -/
theorem write_eq_error (hs : s.Unrestricted) {fault : FileFault} (hnull : '\x00' ∉ path.toList)
    (hdirectory : ∀ rights, s.find path ≠ .ok (.directory rights))
    (h : s.write (normalizePath path) content = .error fault) :
    fault = .missing ∨ Unwritable path fault := by
  unfold write at h
  split at h
  · rename_i hl
    cases h
    rcases locate_eq_error hl with ⟨-, hmem⟩ | rfl | rfl | rfl | ⟨-, hno⟩
    · exact absurd hmem (not_mem_normalizePath hnull)
    · exact .inl rfl
    · exact .inr .behindFile
    · exact .inr .tooLong
    · exact absurd hs.searchable hno
  rename_i l hl
  split at h
  · rename_i hplacing
    cases h
    rcases placing_eq_error hs hplacing with rfl | ⟨rfl, rights, hdir⟩
    · exact .inl rfl
    · refine .inr (.directory (Classical.byContradiction fun hpath => hdirectory rights ?_))
      obtain ⟨hne, hshort⟩ := not_or.mp hpath
      exact find_eq_ok_iff.mpr ⟨l, locate_of_normalizePath hs.searchable hnull
        (Nat.not_lt.mp hshort) (fun hnil => hne (String.toList_eq_nil_iff.mp hnil)) hdir hl, hdir⟩
  · cases h

end Store

end CallNotation
