import CallNotation.CommandLine.Arguments
import CallNotation.Proofs.Token.Lexeme

/-!
# What arguments ask for

Arguments begin with an operand or with an option (`Begins`), which sets something in the request
that the rest of them make; `--` makes operands of all that is behind it. So a request is read from
the end, and of two output files the last is taken, but of two notices the first. A bad option
(`Bad`) spoils the whole. Names, letters and values are spelled out here as a caller writes them.

Results:
* **`reads_iff`**, **`badOption_iff`**: arguments make the request that they are sorted to, or there
  is a bad option among them.
* `reads_or_badOption`, `Reads.not_badOption`: one of the two is so, and not the other.
* `Reads.paths`: the paths of a request are parts of its arguments.
-/

namespace CallNotation

/-! ## Requests -/

/-- Names the output file of a request, unless it names one itself. -/
def Request.naming (path : String) (q : Request) : Request :=
  { q with output := q.output.or (some path) }

/-- Makes a request verbose if the letter for that is given a number of times other than none. -/
def Request.verboseTimes (n : Nat) (q : Request) : Request :=
  { q with verbose := q.verbose || n ≠ 0 }

/-- **The options that take no value**, and what they set in a request. -/
inductive Sets : String → (Request → Request) → Prop
  | tokens : Sets "--tokens" fun q => { q with tokens := true }
  | outline : Sets "--ast" fun q => { q with outline := true }
  | verbose : Sets "--verbose" fun q => { q with verbose := true }
  | version : Sets "--version" fun q => { q with notice := some .version }
  | help : Sets "--help" fun q => { q with notice := some .help }

/-- Letters behind a hyphen, the first `n` of them those for a verbose run. -/
def bundle (n : Nat) (t : Text) : String :=
  String.ofList ('-' :: (List.replicate n 'v' ++ t))

/-- A name behind two hyphens. -/
def named (t : Text) : String :=
  String.ofList ('-' :: '-' :: t)

/-- **How arguments begin**: with an operand or an option, which sets something in the request that
the rest makes. -/
inductive Begins : List String → (Request → Request) → List String → Prop
  /-- An operand has no hyphen in front, or is nothing but a hyphen. -/
  | operand {a : String} {rest : List String} (h : a = "-" ∨ a.toList.head? ≠ some '-') :
      Begins (a :: rest) (fun q => { q with operands := a :: q.operands }) rest
  /-- An option is named. -/
  | name {a : String} {set : Request → Request} {rest : List String} (h : Sets a set) :
      Begins (a :: rest) set rest
  /-- The letter for a verbose run is given, once or more often. -/
  | letters {n : Nat} {rest : List String} (h : n ≠ 0) :
      Begins (bundle n [] :: rest) (Request.verboseTimes n) rest
  /-- The output file is the next argument. -/
  | output {path : String} {rest : List String} :
      Begins ("--output" :: path :: rest) (Request.naming path) rest
  /-- The output file stands behind the name of its option. -/
  | outputValue {path : String} {rest : List String} :
      Begins (("--output=" ++ path) :: rest) (Request.naming path) rest
  /-- The letter for the output file is the last, and the file is the next argument. -/
  | letter {n : Nat} {path : String} {rest : List String} :
      Begins (bundle n ['o'] :: path :: rest) (fun q => (q.naming path).verboseTimes n) rest
  /-- The output file stands behind the letter for it. -/
  | letterValue {n : Nat} {path : Text} {rest : List String} (h : path ≠ []) :
      Begins (bundle n ('o' :: path) :: rest)
        (fun q => (q.naming (String.ofList path)).verboseTimes n) rest

/-- **The request that arguments make.** -/
inductive Reads : List String → Request → Prop
  | nil : Reads [] {}
  | dashes {operands : List String} : Reads ("--" :: operands) { operands }
  | item {arguments rest : List String} {set : Request → Request} {q : Request}
      (h : Begins arguments set rest) (hr : Reads rest q) : Reads arguments (set q)

/-- **A bad option stands first.** -/
inductive Bad : List String → Prop
  /-- No option has the name, whether it is given a value or not. -/
  | unknownName {name value : Text} {rest : List String} (hname : '=' ∉ name)
      (hvalue : ∀ c ∈ value.head?, c = '=') (hdashes : name ++ value ≠ [])
      (hno : named name ∉ ["--output", "--tokens", "--ast", "--verbose", "--version", "--help"]) :
      Bad (named (name ++ value) :: rest)
  /-- A value is given to an option that takes none. -/
  | needlessValue {a value : String} {set : Request → Request} {rest : List String}
      (h : Sets a set) : Bad ((a ++ "=" ++ value) :: rest)
  /-- There is no output file behind the name of its option. -/
  | missingValue : Bad ["--output"]
  /-- There is no output file behind the letter for it. -/
  | missingLetterValue {n : Nat} : Bad [bundle n ['o']]
  /-- There is no option for a letter. -/
  | unknownLetter {n : Nat} {c : Char} {t : Text} {rest : List String} (hc : c ≠ 'v' ∧ c ≠ 'o')
      (hname : n = 0 → c ≠ '-') : Bad (bundle n (c :: t) :: rest)

/-- **There is a bad option** among the arguments, in front of `--` and where no option takes it for
its value. -/
inductive BadOption : List String → Prop
  | here {arguments : List String} (h : Bad arguments) : BadOption arguments
  | behind {arguments rest : List String} {set : Request → Request}
      (h : Begins arguments set rest) (hr : BadOption rest) : BadOption arguments

/-! ## Single arguments -/

namespace Argument

theorem ofString_operand {a : String} (h : a = "-" ∨ a.toList.head? ≠ some '-') :
    ofString a = .operand := by
  rcases h with rfl | h
  · rfl
  · unfold ofString
    split
    case h_4 => rfl
    all_goals
      rename_i heq
      exact absurd (by rw [heq]; rfl) h

/-- A name ends at the first `=`. -/
theorem ofName_append {name value : Text} (hname : '=' ∉ name)
    (hvalue : ∀ c ∈ value.head?, c = '=') :
    ofName (name ++ value) = ofNamed (String.ofList name) value := by
  have hrun : (name ++ value).takeWhile (· ≠ '=') = name :=
    Token.takeWhile_run (fun c hc => decide_eq_true fun heq => hname (heq ▸ hc))
      fun c hc => decide_eq_false (not_not.mpr (hvalue c hc))
  unfold ofName
  simp only [hrun, List.drop_left]

theorem ofString_named {t : Text} (h : t ≠ []) :
    ofString (named t) = ofName ('-' :: '-' :: t) := by
  obtain ⟨c, t, rfl⟩ := List.exists_cons_of_ne_nil h
  unfold ofString named
  rw [String.toList_ofList]
  rfl

/-- The letters for a verbose run come first. -/
theorem ofLetters_replicate (n : Nat) (before : List Switch) (t : Text) :
    ofLetters before (List.replicate n 'v' ++ t) =
      ofLetters (before ++ List.replicate n .verbose) t := by
  induction n generalizing before with
  | zero => rw [List.replicate_zero, List.replicate_zero, List.nil_append, List.append_nil]
  | succ n ih =>
    rw [List.replicate_succ, List.replicate_succ, List.cons_append, ofLetters, if_pos rfl, ih,
      List.append_assoc]
    rfl

theorem ofString_bundle {n : Nat} {t : Text} (hne : List.replicate n 'v' ++ t ≠ [])
    (hname : n = 0 → t.head? ≠ some '-') :
    ofString (bundle n t) = ofLetters (List.replicate n .verbose) t := by
  have hletters := ofLetters_replicate n [] t
  rw [List.nil_append] at hletters
  rw [← hletters]
  unfold ofString bundle
  rw [String.toList_ofList]
  obtain ⟨c, u, hu⟩ := List.exists_cons_of_ne_nil hne
  have hc : c ≠ '-' := by
    rintro rfl
    cases n with
    | zero => exact hname rfl (by rw [← List.nil_append t]; exact congrArg List.head? hu)
    | succ n => cases hu
  rw [hu]
  split
  · rename_i heq
    cases heq
    exact absurd rfl hc
  · rename_i heq
    cases heq
    exact absurd rfl hc
  · rename_i heq
    cases heq
    rfl
  · rename_i hno
    exact absurd rfl (hno c u)

theorem ofString_letters {n : Nat} (h : n ≠ 0) :
    ofString (bundle n []) = .switches (List.replicate n .verbose) :=
  ofString_bundle (by simp [h]) fun _ => nofun

theorem ofString_letter (n : Nat) :
    ofString (bundle n ['o']) = .awaitsOutput (List.replicate n .verbose) "-o" :=
  ofString_bundle (by simp) fun _ => by decide

theorem ofString_letterValue {n : Nat} {path : Text} (h : path ≠ []) :
    ofString (bundle n ('o' :: path)) =
      .output (List.replicate n .verbose) (String.ofList path) := by
  obtain ⟨c, path, rfl⟩ := List.exists_cons_of_ne_nil h
  exact ofString_bundle (by simp) fun _ => by simp

theorem ofString_unknownLetter {n : Nat} {c : Char} {t : Text} (hc : c ≠ 'v' ∧ c ≠ 'o')
    (hname : n = 0 → c ≠ '-') :
    ofString (bundle n (c :: t)) = .bad (.unknownOption (String.ofList ['-', c]) []) := by
  have hletter : (c :: t).head? = some '-' → c = '-' := Option.some.inj
  rw [ofString_bundle (by simp) fun h => mt hletter (hname h), ofLetters, if_neg hc.1, if_neg hc.2]

end Argument

/-! ## Names -/

theorem ofName?_eq_none_iff {a : String} :
    Switch.ofName? a = none ↔
      a ∉ ["--tokens", "--ast", "--verbose", "--version", "--help"] := by
  unfold Switch.ofName?
  split <;> simp_all

theorem Sets.ofName? {a : String} {set : Request → Request} (h : Sets a set) :
    ∃ switch, Switch.ofName? a = some switch ∧ switch.set = set := by
  cases h with
  | tokens => exact ⟨.tokens, rfl, rfl⟩
  | outline => exact ⟨.outline, rfl, rfl⟩
  | verbose => exact ⟨.verbose, rfl, rfl⟩
  | version => exact ⟨.notice .version, rfl, rfl⟩
  | help => exact ⟨.notice .help, rfl, rfl⟩

theorem sets_of_ofName? {a : String} {switch : Switch} (h : Switch.ofName? a = some switch) :
    Sets a switch.set := by
  unfold Switch.ofName? at h
  split at h <;> cases h
  · exact .tokens
  · exact .outline
  · exact .verbose
  · exact .version
  · exact .help

/-- The options without a value are named. -/
theorem Sets.named {a : String} {set : Request → Request} (h : Sets a set) :
    ∃ name, a = named name ∧ '=' ∉ name ∧ name ≠ [] := by
  cases h with
  | tokens => exact ⟨"tokens".toList, rfl, by decide, by decide⟩
  | outline => exact ⟨"ast".toList, rfl, by decide, by decide⟩
  | verbose => exact ⟨"verbose".toList, rfl, by decide, by decide⟩
  | version => exact ⟨"version".toList, rfl, by decide, by decide⟩
  | help => exact ⟨"help".toList, rfl, by decide, by decide⟩

theorem Sets.ne_output {a : String} {set : Request → Request} (h : Sets a set) :
    a ≠ outputName := by
  cases h <;> decide

theorem named_value (name : Text) (value : String) :
    named (name ++ '=' :: value.toList) = named name ++ "=" ++ value := by
  simp [named, ← String.toList_inj]

theorem Argument.ofString_name {name value : Text} (hname : '=' ∉ name)
    (hvalue : ∀ c ∈ value.head?, c = '=') (hdashes : name ++ value ≠ []) :
    ofString (CallNotation.named (name ++ value)) = ofNamed (CallNotation.named name) value := by
  have hname' : '=' ∉ '-' :: '-' :: name := by simp [hname]
  rw [ofString_named hdashes, ← List.cons_append, ← List.cons_append, ofName_append hname' hvalue]
  rfl

theorem Sets.ofString {a : String} {set : Request → Request} (h : Sets a set) :
    ∃ switch, Argument.ofString a = .switches [switch] ∧ switch.set = set := by
  cases h with
  | tokens => exact ⟨.tokens, rfl, rfl⟩
  | outline => exact ⟨.outline, rfl, rfl⟩
  | verbose => exact ⟨.verbose, rfl, rfl⟩
  | version => exact ⟨.notice .version, rfl, rfl⟩
  | help => exact ⟨.notice .help, rfl, rfl⟩

theorem Argument.ofString_outputValue (path : String) :
    ofString ("--output=" ++ path) = .output [] path := by
  have hoption : "--output=" ++ path = CallNotation.named ("output".toList ++ '=' :: path.toList) :=
    (named_value "output".toList path).symm
  rw [hoption, ofString_name (by decide) (by simp) (by simp)]
  exact congrArg (Argument.output []) String.ofList_toList

/-- A name ends where `=` stands, or at the end. -/
theorem exists_name (t : Text) :
    ∃ name value, t = name ++ value ∧ '=' ∉ name ∧ ∀ c ∈ value.head?, c = '=' := by
  refine ⟨t.takeWhile (· ≠ '='), t.dropWhile (· ≠ '='), List.takeWhile_append_dropWhile.symm,
    fun hmem => ?_, fun c hc => ?_⟩
  · have heq := List.mem_takeWhile_imp hmem
    exact absurd rfl (of_decide_eq_true heq)
  · exact not_not.mp (of_decide_eq_false (Token.head?_dropWhile_eq_false t c hc))

/-- Letters are those for a verbose run as far as they are. -/
theorem exists_letters (t : Text) :
    ∃ n u, t = List.replicate n 'v' ++ u ∧ u.head? ≠ some 'v' := by
  induction t with
  | nil => exact ⟨0, [], rfl, nofun⟩
  | cons c t ih =>
    by_cases hc : c = 'v'
    · obtain ⟨n, u, rfl, hu⟩ := ih
      exact ⟨n + 1, u, by rw [hc, List.replicate_succ, List.cons_append], hu⟩
    · exact ⟨0, c :: t, rfl, fun h => hc (Option.some.inj h)⟩

/-! ## Sorting -/

namespace Request

/-- What letters set. -/
theorem setAll_replicate (n : Nat) : setAll (List.replicate n .verbose) = verboseTimes n := by
  funext q
  induction n with
  | zero => simp [setAll, verboseTimes]
  | succ n ih =>
    rw [setAll, List.replicate_succ, List.foldr_cons, ← setAll, ih]
    simp [verboseTimes, Switch.set]

/-- What letters set and the output file they name. -/
theorem setOutput_replicate (n : Nat) (path : String) :
    setOutput (List.replicate n .verbose) path = fun q => (q.naming path).verboseTimes n :=
  funext fun q => congrFun (setAll_replicate n) (q.naming path)

/-- **What stands first sets something in the request that the rest is sorted to.** -/
theorem ofArguments_of_begins {arguments rest : List String} {set : Request → Request}
    (h : Begins arguments set rest) : ofArguments arguments = (ofArguments rest).map set := by
  cases h with
  | operand h =>
    rw [ofArguments, Argument.ofString_operand h]
    rfl
  | name h =>
    obtain ⟨switch, harg, rfl⟩ := h.ofString
    rw [ofArguments, harg]
    rfl
  | letters h =>
    rw [ofArguments, Argument.ofString_letters h, ← setAll_replicate]
  | output => rfl
  | outputValue =>
    rw [ofArguments, Argument.ofString_outputValue]
    rfl
  | letter =>
    rw [ofArguments, Argument.ofString_letter, ← setOutput_replicate]
  | letterValue h =>
    rw [ofArguments, Argument.ofString_letterValue h, ← setOutput_replicate]

/-- **A bad option that stands first is refused.** -/
theorem ofArguments_of_bad {arguments : List String} (h : Bad arguments) :
    ∃ e, ofArguments arguments = .error e ∧ e ≠ .nullInPath := by
  have hbad {a : String} {e : UsageError} (rest : List String)
      (harg : Argument.ofString a = .bad e) (he : e ≠ .nullInPath) :
      ∃ e, ofArguments (a :: rest) = .error e ∧ e ≠ .nullInPath := by
    refine ⟨e, ?_, he⟩
    rw [ofArguments, harg]
  cases h with
  | @unknownName name value rest hname hvalue hdashes hno =>
    have hout : named name ≠ outputName := List.ne_of_not_mem_cons hno
    have hnone : Switch.ofName? (named name) = none :=
      ofName?_eq_none_iff.mpr (List.not_mem_of_not_mem_cons hno)
    refine hbad rest (e := .unknownName (named name)) ?_ nofun
    rw [Argument.ofString_name hname hvalue hdashes]
    unfold Argument.ofNamed
    rw [if_neg hout, hnone]
  | @needlessValue a value set rest h =>
    obtain ⟨switch, hswitch, -⟩ := h.ofName?
    obtain ⟨name, rfl, hname, -⟩ := h.named
    refine hbad rest (e := .needlessValue (named name)) ?_ nofun
    rw [← named_value, Argument.ofString_name hname (by simp) (by simp)]
    unfold Argument.ofNamed
    rw [if_neg h.ne_output, hswitch]
  | missingValue => exact ⟨.missingValue "--output", rfl, nofun⟩
  | @missingLetterValue n =>
    refine ⟨.missingValue "-o", ?_, nofun⟩
    rw [ofArguments, Argument.ofString_letter]
  | @unknownLetter n c t rest hc hname =>
    exact hbad rest (Argument.ofString_unknownLetter hc hname) nofun

end Request

/-! ## All arguments -/

/-- Something other than `--` stands first: an operand, an option or a bad option. -/
def BeginsOrBad (arguments : List String) : Prop :=
  (∃ set rest, Begins arguments set rest ∧ rest.length < arguments.length) ∨ Bad arguments

theorem Begins.beginsOrBad {a : String} {set : Request → Request} {rest : List String}
    (h : Begins (a :: rest) set rest) : BeginsOrBad (a :: rest) :=
  .inl ⟨set, rest, h, Nat.lt_succ_self _⟩

/-- Where the output file is the next argument, it is there or not. -/
theorem beginsOrBad_of_next {a : String} {set : String → Request → Request}
    (hnext : ∀ path rest, Begins (a :: path :: rest) (set path) rest) (hlast : Bad [a])
    (rest : List String) : BeginsOrBad (a :: rest) := by
  cases rest with
  | nil => exact .inr hlast
  | cons path rest =>
    refine .inl ⟨set path, rest, hnext path rest, ?_⟩
    rw [List.length_cons, List.length_cons]
    omega

theorem beginsOrBad_named {t : Text} (ht : t ≠ []) (rest : List String) :
    BeginsOrBad (named t :: rest) := by
  obtain ⟨name, value, rfl, hname, hvalue⟩ := exists_name t
  -- What stands behind the name is a value, if there is anything.
  have hvalue' : value = [] ∨ ∃ v : String, named (name ++ value) = named name ++ "=" ++ v := by
    cases value with
    | nil => exact .inl rfl
    | cons c v =>
      refine .inr ⟨String.ofList v, ?_⟩
      rw [← named_value, String.toList_ofList, hvalue c rfl]
  by_cases hout : named name = "--output"
  · rcases hvalue' with rfl | ⟨v, hv⟩
    · rw [List.append_nil, hout]
      exact beginsOrBad_of_next (fun _ _ => .output) .missingValue rest
    · rw [hv, hout]
      exact Begins.outputValue.beginsOrBad
  cases hs : Switch.ofName? (named name) with
  | none =>
    refine .inr (.unknownName hname hvalue ht ?_)
    exact List.not_mem_cons_of_ne_of_not_mem hout (ofName?_eq_none_iff.mp hs)
  | some switch =>
    have hset := sets_of_ofName? hs
    rcases hvalue' with rfl | ⟨v, hv⟩
    · rw [List.append_nil]
      exact (Begins.name hset).beginsOrBad
    · rw [hv]
      exact .inr (.needlessValue hset)

theorem beginsOrBad_letters {c : Char} (hc : c ≠ '-') (t : Text) (rest : List String) :
    BeginsOrBad (String.ofList ('-' :: c :: t) :: rest) := by
  obtain ⟨n, u, hu, hv⟩ := exists_letters (c :: t)
  have hbundle : String.ofList ('-' :: c :: t) = bundle n u := by rw [bundle, ← hu]
  rw [hbundle]
  cases u with
  | nil =>
    have hn : n ≠ 0 := by
      rintro rfl
      cases hu
    exact (Begins.letters hn).beginsOrBad
  | cons d u =>
    by_cases hd : d = 'o'
    · subst hd
      by_cases hu' : u = []
      · subst hu'
        exact beginsOrBad_of_next (fun _ _ => .letter) .missingLetterValue rest
      · exact (Begins.letterValue hu').beginsOrBad
    · refine .inr (.unknownLetter ⟨fun h => hv (congrArg some h), hd⟩ ?_)
      rintro rfl
      obtain ⟨rfl, -⟩ := List.cons.inj hu
      exact hc

/-- **What stands first** is `--`, an operand, an option or a bad option. -/
theorem eq_dashes_or_beginsOrBad (a : String) (rest : List String) :
    a = "--" ∨ BeginsOrBad (a :: rest) := by
  obtain ⟨t, rfl⟩ : ∃ t, a = String.ofList t := ⟨a.toList, String.ofList_toList.symm⟩
  by_cases hhead : t.head? = some '-'
  · obtain ⟨t, rfl⟩ : ∃ u, t = '-' :: u := ⟨t.tail, List.eq_cons_of_mem_head? hhead⟩
    cases t with
    | nil => exact .inr (Begins.operand (.inl rfl)).beginsOrBad
    | cons c t =>
      by_cases hc : c = '-'
      · subst hc
        cases t with
        | nil => exact .inl rfl
        | cons c t => exact .inr (beginsOrBad_named (List.cons_ne_nil c t) rest)
      · exact .inr (beginsOrBad_letters hc t rest)
  · rw [← String.toList_ofList (l := t)] at hhead
    exact .inr (Begins.operand (.inr hhead)).beginsOrBad

variable {arguments : List String} {q : Request}

/-- Arguments make a request, or there is a bad option among them. -/
theorem reads_or_badOption (arguments : List String) :
    (∃ q, Reads arguments q) ∨ BadOption arguments :=
  match arguments with
  | [] => .inl ⟨{}, .nil⟩
  | a :: rest => by
    rcases eq_dashes_or_beginsOrBad a rest with rfl | ⟨set, rest', h, hlt⟩ | h
    · exact .inl ⟨_, .dashes⟩
    · rcases reads_or_badOption rest' with ⟨q, hq⟩ | hbad
      · exact .inl ⟨_, .item h hq⟩
      · exact .inr (.behind h hbad)
    · exact .inr (.here h)
termination_by arguments.length
decreasing_by exact hlt

theorem Reads.ofArguments (h : Reads arguments q) : Request.ofArguments arguments = .ok q := by
  induction h with
  | nil => rfl
  | dashes => rfl
  | item h _ ih =>
    rw [Request.ofArguments_of_begins h, ih]
    rfl

theorem BadOption.ofArguments (h : BadOption arguments) :
    ∃ e, Request.ofArguments arguments = .error e ∧ e ≠ .nullInPath := by
  induction h with
  | here h => exact Request.ofArguments_of_bad h
  | behind h _ ih =>
    obtain ⟨e, he, hne⟩ := ih
    refine ⟨e, ?_, hne⟩
    rw [Request.ofArguments_of_begins h, he]
    rfl

/-- **Arguments make the request that they are sorted to.** -/
theorem reads_iff : Reads arguments q ↔ Request.ofArguments arguments = .ok q := by
  refine ⟨Reads.ofArguments, fun h => ?_⟩
  rcases reads_or_badOption arguments with ⟨q', hq⟩ | hbad
  · obtain rfl := Except.ok.inj (hq.ofArguments.symm.trans h)
    exact hq
  · obtain ⟨e, he, -⟩ := hbad.ofArguments
    cases h.symm.trans he

/-- **Arguments are refused just if there is a bad option among them.** -/
theorem badOption_iff :
    BadOption arguments ↔ ∃ e, Request.ofArguments arguments = .error e := by
  refine ⟨fun h => h.ofArguments.imp fun _ => And.left, fun ⟨e, he⟩ => ?_⟩
  rcases reads_or_badOption arguments with ⟨q, hq⟩ | hbad
  · cases hq.ofArguments.symm.trans he
  · exact hbad

/-- Arguments make one request. -/
theorem Reads.unique {q' : Request} (h : Reads arguments q) (h' : Reads arguments q') : q = q' :=
  Except.ok.inj (h.ofArguments.symm.trans h'.ofArguments)

/-- Arguments that make a request hold no bad option. -/
theorem Reads.not_badOption (h : Reads arguments q) : ¬ BadOption arguments := by
  intro hbad
  obtain ⟨e, he, -⟩ := hbad.ofArguments
  cases h.ofArguments.symm.trans he

theorem begins_verbose (arguments : List String) :
    Begins ("-v" :: arguments) (fun q => { q with verbose := true }) arguments := by
  have hset : Request.verboseTimes 1 = fun q => { q with verbose := true } := by
    funext q
    simp [Request.verboseTimes]
  exact hset ▸ Begins.letters Nat.one_ne_zero

theorem begins_output (path : String) (arguments : List String) :
    Begins ("-o" :: path :: arguments) (Request.naming path) arguments := by
  have hset : (fun q => Request.verboseTimes 0 (q.naming path)) = Request.naming path := by
    funext q
    simp [Request.verboseTimes]
  exact hset ▸ Begins.letter (n := 0)

/-- The option for a verbose run changes nothing else in the request behind it. -/
theorem Reads.verbosely (h : Reads arguments q) :
    Reads ("-v" :: arguments) { q with verbose := true } :=
  .item (begins_verbose arguments) h

/-! ## Paths -/

/-- The paths of a request. -/
def Request.paths (q : Request) : List String :=
  q.output.toList ++ q.operands

theorem Request.mem_paths {path : String} :
    path ∈ q.paths ↔ q.output = some path ∨ path ∈ q.operands := by
  simp [paths]

/-- A path that is named adds itself, and is part of an argument. -/
theorem Request.of_mem_paths_naming {path path' a : String} (ha : a ∈ arguments)
    (hpart : path.toList ⊆ a.toList) (h : path' ∈ (q.naming path).paths) :
    path' ∈ q.paths ∨ ∃ a ∈ arguments, path'.toList ⊆ a.toList := by
  rw [mem_paths] at h ⊢
  rcases h with h | h
  · rcases Option.or_eq_some_iff.mp h with h | ⟨-, h⟩
    · exact .inl (.inl h)
    · exact .inr ⟨a, ha, Option.some.inj h ▸ hpart⟩
  · exact .inl (.inr h)

/-- What stands first adds no path but a part of itself. -/
theorem Begins.paths {rest : List String} {set : Request → Request}
    (h : Begins arguments set rest) (q : Request) :
    ∀ path ∈ (set q).paths, path ∈ q.paths ∨ ∃ a ∈ arguments, path.toList ⊆ a.toList := by
  cases h with
  | operand h =>
    intro path hpath
    rw [Request.mem_paths] at hpath ⊢
    rcases hpath with hpath | hpath
    · exact .inl (.inl hpath)
    · rcases List.mem_cons.mp hpath with rfl | hpath
      · exact .inr ⟨path, List.mem_cons_self, List.Subset.refl _⟩
      · exact .inl (.inr hpath)
  | name h =>
    intro path hpath
    left
    cases h <;> exact hpath
  | letters h => exact fun path hpath => .inl hpath
  | output =>
    exact fun _ => Request.of_mem_paths_naming (.tail _ (.head _)) (List.Subset.refl _)
  | outputValue =>
    refine fun _ => Request.of_mem_paths_naming (.head _) ?_
    rw [String.toList_append]
    exact List.subset_append_right ..
  | letter =>
    exact fun _ => Request.of_mem_paths_naming (.tail _ (.head _)) (List.Subset.refl _)
  | letterValue h =>
    refine fun _ => Request.of_mem_paths_naming (.head _) ?_
    rw [bundle, String.toList_ofList, String.toList_ofList]
    exact List.subset_cons_of_subset _
      (List.subset_append_of_subset_right _ (List.subset_cons_self ..))

theorem Begins.rest_subset {rest : List String} {set : Request → Request}
    (h : Begins arguments set rest) : rest ⊆ arguments := by
  cases h with
  | output => exact fun a ha => .tail _ (.tail _ ha)
  | letter => exact fun a ha => .tail _ (.tail _ ha)
  | _ => exact List.subset_cons_self ..

/-- **The paths of a request are parts of its arguments.** -/
theorem Reads.paths (h : Reads arguments q) :
    ∀ path ∈ q.paths, ∃ a ∈ arguments, path.toList ⊆ a.toList := by
  induction h with
  | nil => exact fun path hpath => absurd hpath List.not_mem_nil
  | dashes => exact fun path hpath => ⟨path, .tail _ hpath, List.Subset.refl _⟩
  | @item arguments rest set q h _ ih =>
    intro path hpath
    rcases h.paths q path hpath with hpath | hfound
    · obtain ⟨a, ha, hpart⟩ := ih path hpath
      exact ⟨a, h.rest_subset ha, hpart⟩
    · exact hfound

end CallNotation
