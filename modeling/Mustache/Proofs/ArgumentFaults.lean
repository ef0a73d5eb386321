import Mustache.Proofs.Calls

/-! The arguments of a command and their faults. An argument is faulty by itself, or because a path
stands before it; the first faulty one decides what is said. Without a fault the arguments may
stand in any order, as long as the options that set the delimiters keep theirs. -/
namespace Mustache.Program

/-- Options begin with a hyphen. -/
def IsOption (argument : Text) : Prop := argument.head? = some '-'

instance (argument : Text) : Decidable (IsOption argument) := inferInstanceAs (Decidable (_ = _))

/-- The arguments that are no options. -/
def paths (arguments : List Text) : List Text := arguments.filter (¬ IsOption ·)

/-- The options that set the delimiters. -/
def delimitersOptions (arguments : List Text) : List Text :=
  arguments.filter delimitersOption.isPrefixOf

/-- What is said of an argument that cannot be accepted behind earlier ones. -/
inductive Faulty (earlier : List Text) : Text → Text → Prop
  | invalidDelimiters {value : Text} (hvalue : Delimiters.ofWords? value = none) :
    Faulty earlier (delimitersOption ++ value) ("invalid delimiters '".toList ++ value ++
      "': expected two non-empty sequences separated by a space, e.g. \"<% %>\"".toList)
  | unknownOption {argument : Text} (hoption : IsOption argument) (hjson : argument ≠ jsonOption)
      (hdelimiters : ¬ delimitersOption <+: argument) :
    Faulty earlier argument ("unknown option '".toList ++ argument ++ "'".toList)
  | unexpectedArgument {path argument : Text} (hpath : path ∈ earlier) (hfirst : ¬ IsOption path)
      (hsecond : ¬ IsOption argument) :
    Faulty earlier argument ("unexpected argument '".toList ++ argument ++ "'".toList)

/-- No argument is faulty where it stands. -/
def Faultless (arguments : List Text) : Prop :=
  ∀ earlier argument later, arguments = earlier ++ argument :: later →
    ∀ message, ¬ Faulty earlier argument message

/-- The pair of the last option that sets the delimiters; braces if there is none. -/
def LastPair (arguments : List Text) (d : Delimiters) : Prop :=
  match (delimitersOptions arguments).getLast? with
  | none => d = .braces
  | some option => ∃ value, option = delimitersOption ++ value ∧ Delimiters.ofWords? value = some d

/-- What is said of arguments that cannot be accepted. -/
inductive Refused (arguments : List Text) : Text → Prop
  | faulty {earlier later : List Text} {argument message : Text}
      (hsplit : arguments = earlier ++ argument :: later) (hearlier : Faultless earlier)
      (hfaulty : Faulty earlier argument message) : Refused arguments message
  | missingPath (hfaultless : Faultless arguments) (hpaths : paths arguments = []) :
    Refused arguments "missing file path".toList

variable {earlier arguments : List Text} {argument value : Text} {path : Option Text}
  {d pair : Delimiters}

/-! What one more argument adds. -/

lemma isOption_jsonOption : IsOption jsonOption := by decide

lemma isOption_of_pair (h : delimitersOption <+: argument) : IsOption argument := by
  obtain ⟨value, rfl⟩ := h
  rfl

lemma not_prefix_jsonOption : ¬ delimitersOption <+: jsonOption := by decide

lemma faultless_nil : Faultless [] := by
  intro earlier argument later h
  simp at h

lemma faultless_concat :
    Faultless (earlier ++ [argument]) ↔
      Faultless earlier ∧ ∀ message, ¬ Faulty earlier argument message := by
  constructor
  · intro h
    refine ⟨fun front a back hsplit => ?_, h earlier argument [] rfl⟩
    exact h front a (back ++ [argument]) (by rw [hsplit]; simp)
  · rintro ⟨hearlier, hargument⟩ front a back hsplit
    rcases List.eq_nil_or_concat' back with rfl | ⟨back, b, rfl⟩
    · obtain ⟨rfl, hlast⟩ := List.append_inj' hsplit rfl
      obtain rfl := List.singleton_inj.1 hlast
      exact hargument
    · rw [← List.cons_append, ← List.append_assoc] at hsplit
      exact hearlier front a back (List.append_inj' hsplit rfl).1

lemma mem_paths : argument ∈ paths arguments ↔ argument ∈ arguments ∧ ¬ IsOption argument := by
  simp [paths]

lemma paths_concat_of_option (h : IsOption argument) :
    paths (earlier ++ [argument]) = paths earlier := by
  simp [paths, h]

lemma paths_concat_of_not_option (h : ¬ IsOption argument) :
    paths (earlier ++ [argument]) = paths earlier ++ [argument] := by
  simp [paths, h]

lemma lastPair_concat_of_other (h : ¬ delimitersOption <+: argument) :
    LastPair (earlier ++ [argument]) d ↔ LastPair earlier d := by
  have hoptions : delimitersOptions (earlier ++ [argument]) = delimitersOptions earlier := by
    simp [delimitersOptions, h]
  rw [LastPair, hoptions, LastPair]

lemma lastPair_concat_delimitersOption (h : Delimiters.ofWords? value = some d) :
    LastPair (earlier ++ [delimitersOption ++ value]) d := by
  have hoptions : delimitersOptions (earlier ++ [delimitersOption ++ value]) =
      delimitersOptions earlier ++ [delimitersOption ++ value] := by
    simp [delimitersOptions]
  rw [LastPair, hoptions, List.getLast?_concat]
  exact ⟨value, rfl, h⟩

lemma LastPair.eq (h : LastPair arguments d) (h' : LastPair arguments pair) : d = pair := by
  unfold LastPair at h h'
  cases hlast : (delimitersOptions arguments).getLast? with
  | none =>
    rw [hlast] at h h'
    exact h.trans h'.symm
  | some option =>
    rw [hlast] at h h'
    obtain ⟨value, hvalue, hd⟩ := h
    obtain ⟨value', hvalue', hpair⟩ := h'
    obtain rfl := List.append_cancel_left (hvalue.symm.trans hvalue')
    exact Option.some.inj (hd.symm.trans hpair)

/-- Arguments without a fault have been read, and a path and a pair were found among them. -/
structure Reads (arguments : List Text) (path : Option Text) (d : Delimiters) : Prop where
  faultless : Faultless arguments
  paths_eq : paths arguments = path.toList
  lastPair : LastPair arguments d

lemma reads_nil : Reads [] none .braces := ⟨faultless_nil, rfl, rfl⟩

namespace Reads

lemma json (h : Reads earlier path d) : Reads (earlier ++ [jsonOption]) path d where
  faultless := by
    refine faultless_concat.2 ⟨h.faultless, fun message hfaulty => ?_⟩
    generalize hargument : jsonOption = argument at hfaulty
    cases hfaulty with
    | invalidDelimiters hvalue => exact not_prefix_jsonOption ⟨_, hargument.symm⟩
    | unknownOption _ hjson => exact hjson hargument.symm
    | unexpectedArgument _ _ hsecond => exact hsecond (hargument ▸ isOption_jsonOption)
  paths_eq := (paths_concat_of_option isOption_jsonOption).trans h.paths_eq
  lastPair := (lastPair_concat_of_other not_prefix_jsonOption).2 h.lastPair

lemma delimiters (h : Reads earlier path d) (hvalue : Delimiters.ofWords? value = some pair) :
    Reads (earlier ++ [delimitersOption ++ value]) path pair where
  faultless := by
    refine faultless_concat.2 ⟨h.faultless, fun message hfaulty => ?_⟩
    generalize hargument : delimitersOption ++ value = argument at hfaulty
    cases hfaulty with
    | invalidDelimiters hnone =>
      obtain rfl := List.append_cancel_left hargument
      rw [hnone] at hvalue
      cases hvalue
    | unknownOption _ _ hdelimiters => exact hdelimiters ⟨value, hargument⟩
    | unexpectedArgument _ _ hsecond => exact hsecond (isOption_of_pair ⟨value, hargument⟩)
  paths_eq :=
    (paths_concat_of_option (isOption_of_pair (List.prefix_append _ _))).trans h.paths_eq
  lastPair := lastPair_concat_delimitersOption hvalue

lemma firstPath (h : Reads earlier none d) (hargument : ¬ IsOption argument) :
    Reads (earlier ++ [argument]) (some argument) d where
  faultless := by
    refine faultless_concat.2 ⟨h.faultless, fun message hfaulty => ?_⟩
    cases hfaulty with
    | invalidDelimiters => exact hargument (isOption_of_pair (List.prefix_append _ _))
    | unknownOption hoption => exact hargument hoption
    | unexpectedArgument hpath hfirst =>
      have hmem := mem_paths.2 ⟨hpath, hfirst⟩
      rw [h.paths_eq] at hmem
      cases hmem
  paths_eq := by
    rw [paths_concat_of_not_option hargument, h.paths_eq]
    rfl
  lastPair := by
    refine (lastPair_concat_of_other fun hprefix => ?_).2 h.lastPair
    exact hargument (isOption_of_pair hprefix)

/-- One argument is either read, and what is known of the arguments before it carries over, or
faulty behind them, whatever comes later. -/
lemma step (h : Reads earlier path d) (json : Bool) (argument : Text) (later : List Text) :
    (∃ path' json' pair, Reads (earlier ++ [argument]) path' pair ∧
      parseFrom path json d (argument :: later) = parseFrom path' json' pair later) ∨
    ∃ problem, Faulty earlier argument problem.message ∧
      parseFrom path json d (argument :: later) = .error problem := by
  simp only [parseFrom]
  by_cases hjson : argument = jsonOption
  · subst hjson
    exact .inl ⟨path, true, d, h.json, if_pos (beq_self_eq_true _)⟩
  rw [if_neg (by simpa using hjson)]
  by_cases hprefix : delimitersOption <+: argument
  · obtain ⟨value, rfl⟩ := hprefix
    rw [if_pos (List.isPrefixOf_iff_prefix.2 (List.prefix_append _ _)), List.drop_left,
      parseDelimiters]
    cases hvalue : Delimiters.ofWords? value with
    | none => exact .inr ⟨_, .invalidDelimiters hvalue, rfl⟩
    | some pair => exact .inl ⟨path, json, pair, h.delimiters hvalue, rfl⟩
  rw [if_neg (by simpa using hprefix)]
  by_cases hoption : IsOption argument
  · rw [if_pos (beq_iff_eq.2 hoption)]
    exact .inr ⟨_, .unknownOption hoption hjson hprefix, rfl⟩
  rw [if_neg (mt beq_iff_eq.1 hoption)]
  cases path with
  | none => exact .inl ⟨some argument, json, d, h.firstPath hoption, rfl⟩
  | some first =>
    obtain ⟨hmem, hfirst⟩ := mem_paths.1 (show first ∈ paths earlier by simp [h.paths_eq])
    exact .inr ⟨.unexpectedArgument argument, .unexpectedArgument hmem hfirst hoption, rfl⟩

/-- Reading on comes to a path among arguments without a fault, or to a refusal. -/
lemma run (h : Reads earlier path d) (json : Bool) (arguments : List Text) :
    (∃ parsed, parseFrom path json d arguments = .ok parsed ∧
      Reads (earlier ++ arguments) (some parsed.path) parsed.delimiters) ∨
    ∃ problem, parseFrom path json d arguments = .error problem ∧
      Refused (earlier ++ arguments) problem.message := by
  -- The options read so far change with every argument; `Reads` ties them to `earlier`.
  induction arguments generalizing earlier path json d with
  | nil =>
    rw [List.append_nil]
    cases path with
    | none => exact .inr ⟨_, rfl, .missingPath h.faultless h.paths_eq⟩
    | some p => exact .inl ⟨_, rfl, h⟩
  | cons argument later ih =>
    rcases h.step json argument later with
      ⟨path', json', pair, hread, hparse⟩ | ⟨_, hfaulty, hparse⟩
    · rw [hparse, List.append_cons]
      exact ih hread json'
    · exact .inr ⟨_, hparse, .faulty rfl h.faultless hfaulty⟩

end Reads

lemma parseArguments_cases (arguments : List Text) :
    (∃ parsed, parseArguments arguments = .ok parsed ∧
      Reads arguments (some parsed.path) parsed.delimiters) ∨
    ∃ problem, parseArguments arguments = .error problem ∧ Refused arguments problem.message :=
  reads_nil.run false arguments

/-! Refusals. -/

lemma Faulty.message_eq {message message' : Text} (h : Faulty earlier argument message)
    (h' : Faulty earlier argument message') : message = message' := by
  generalize hargument : argument = argument' at h'
  cases h with
  | invalidDelimiters =>
    cases h' with
    | invalidDelimiters =>
      obtain rfl := List.append_cancel_left hargument
      rfl
    | unknownOption _ _ hdelimiters => exact absurd ⟨_, hargument⟩ hdelimiters
    | unexpectedArgument _ _ hsecond => exact absurd (isOption_of_pair ⟨_, hargument⟩) hsecond
  | unknownOption hoption _ hdelimiters =>
    cases h' with
    | invalidDelimiters => exact absurd ⟨_, hargument.symm⟩ hdelimiters
    | unknownOption => rw [hargument]
    | unexpectedArgument _ _ hsecond => exact absurd (hargument ▸ hoption) hsecond
  | unexpectedArgument _ _ hsecond =>
    cases h' with
    | invalidDelimiters => exact absurd (isOption_of_pair ⟨_, hargument.symm⟩) hsecond
    | unknownOption hoption => exact absurd (hargument ▸ hoption) hsecond
    | unexpectedArgument => rw [hargument]

/-- Of two faulty arguments, the one with no fault before it comes first. -/
lemma Faulty.length_le {earlier' later later' : List Text} {argument' message : Text}
    (h : Faulty earlier argument message) (hfaultless : Faultless earlier')
    (hsplit : earlier ++ argument :: later = earlier' ++ argument' :: later') :
    earlier'.length ≤ earlier.length := by
  by_contra hlt
  -- Otherwise the faulty argument would stand within the arguments without a fault.
  have hfront : earlier ++ [argument] <+: earlier ++ argument :: later := ⟨later, by simp⟩
  have hfront' : earlier' <+: earlier ++ argument :: later := ⟨argument' :: later', hsplit.symm⟩
  have hprefix : earlier ++ [argument] <+: earlier' := by
    apply List.prefix_of_prefix_length_le hfront hfront'
    rw [List.length_append, List.length_singleton]
    omega
  obtain ⟨back, rfl⟩ := hprefix
  exact hfaultless earlier argument back (by simp) message h

lemma Refused.paths_ne {message path : Text} (h : Refused arguments message)
    (hfaultless : Faultless arguments) : paths arguments ≠ [path] := by
  intro hpath
  cases h with
  | faulty hsplit _ hfaulty => exact hfaultless _ _ _ hsplit _ hfaulty
  | missingPath _ hpaths =>
    rw [hpath] at hpaths
    cases hpaths

/-- Only one thing can be said of arguments that are refused. -/
lemma Refused.message_eq {message message' : Text} (h : Refused arguments message)
    (h' : Refused arguments message') : message = message' := by
  cases h with
  | missingPath hfaultless =>
    cases h' with
    | missingPath => rfl
    | faulty hsplit _ hfaulty => exact absurd hfaulty (hfaultless _ _ _ hsplit _)
  | faulty hsplit hearlier hfaulty =>
    cases h' with
    | missingPath hfaultless => exact absurd hfaulty (hfaultless _ _ _ hsplit _)
    | faulty hsplit' hearlier' hfaulty' =>
      rw [hsplit] at hsplit'
      have hlength := Nat.le_antisymm (hfaulty'.length_le hearlier hsplit'.symm)
        (hfaulty.length_le hearlier' hsplit')
      obtain ⟨rfl, hrest⟩ := List.append_inj hsplit' hlength
      obtain ⟨rfl, -⟩ := List.cons.inj hrest
      exact hfaulty.message_eq hfaulty'

/-! Order. -/

/-- A fault of an argument by itself does not depend on what stands before it, and there is no
second path in any order. -/
lemma Faultless.perm {others : List Text} (h : Faultless arguments) (hperm : others.Perm arguments)
    (hpaths : (paths arguments).length ≤ 1) : Faultless others := by
  intro earlier argument later hsplit message hfaulty
  have hmem : argument ∈ arguments := hperm.subset (by simp [hsplit])
  obtain ⟨front, back, hfront⟩ := List.append_of_mem hmem
  cases hfaulty with
  | invalidDelimiters hvalue => exact h front _ back hfront _ (.invalidDelimiters hvalue)
  | unknownOption hoption hjson hdelimiters =>
    exact h front _ back hfront _ (.unknownOption hoption hjson hdelimiters)
  | unexpectedArgument hpath hfirst hsecond =>
    have hlength : (paths others).length = (paths arguments).length :=
      (hperm.filter _).length_eq
    have htwo : paths others = paths earlier ++ argument :: paths later := by
      rw [hsplit]
      simp [paths, hsecond]
    have hpos : 0 < (paths earlier).length := List.length_pos_of_mem (mem_paths.2 ⟨hpath, hfirst⟩)
    rw [htwo, List.length_append, List.length_cons] at hlength
    omega

lemma Reads.perm {others : List Text} {path : Text} (h : Reads arguments (some path) d)
    (hperm : others.Perm arguments)
    (horder : delimitersOptions others = delimitersOptions arguments) :
    Reads others (some path) d where
  faultless := h.faultless.perm hperm (by simp [h.paths_eq])
  paths_eq := by
    have hpaths : (paths others).Perm (paths arguments) := hperm.filter _
    rw [h.paths_eq] at hpaths
    exact hpaths.eq_singleton
  lastPair := by
    have hpair := h.lastPair
    rwa [LastPair, ← horder] at hpair

lemma reads_of_parseArguments {parsed : Arguments} (h : parseArguments arguments = .ok parsed) :
    Reads arguments (some parsed.path) parsed.delimiters := by
  rcases parseArguments_cases arguments with ⟨parsed', hparse, hreads⟩ | ⟨problem, hparse, -⟩
  · rw [h, Except.ok.injEq] at hparse
    exact hparse ▸ hreads
  · rw [h] at hparse
    cases hparse

lemma exists_parseArguments {path : Text} (hfaultless : Faultless arguments)
    (hpath : paths arguments = [path]) : ∃ parsed, parseArguments arguments = .ok parsed := by
  rcases parseArguments_cases arguments with ⟨parsed, hparse, -⟩ | ⟨problem, -, hrefused⟩
  · exact ⟨parsed, hparse⟩
  · exact absurd hpath (hrefused.paths_ne hfaultless)

/-- Accepted arguments are known by what is read of them. -/
lemma parseArguments_of_reads {others : List Text} {parsed : Arguments}
    (h : Reads others (some parsed.path) parsed.delimiters)
    (hjson : parsed.json = true ↔ jsonOption ∈ others) : parseArguments others = .ok parsed := by
  obtain ⟨parsed', hparse⟩ := exists_parseArguments h.faultless h.paths_eq
  have hreads := reads_of_parseArguments hparse
  have hpath : parsed'.path = parsed.path := by
    have hpaths := hreads.paths_eq.symm.trans h.paths_eq
    simpa using hpaths
  have hpair : parsed'.delimiters = parsed.delimiters := hreads.lastPair.eq h.lastPair
  have hflag : parsed'.json = parsed.json :=
    Bool.eq_iff_iff.2 ((json_of_parseArguments hparse).trans hjson.symm)
  rw [hparse]
  cases parsed
  cases parsed'
  simp_all

/-- Arguments are accepted exactly if none is faulty and there is one path. What is accepted is the
path, whether data is asked for, and the pair of the last option for delimiters, in whatever order
the other arguments stand. Of refused arguments the first faulty one is named. -/
theorem parseArguments_decided_by_first_fault (arguments : List Text) :
    ((∃ parsed, parseArguments arguments = .ok parsed) ↔
      Faultless arguments ∧ ∃ path, paths arguments = [path]) ∧
    (∀ parsed, parseArguments arguments = .ok parsed →
      paths arguments = [parsed.path] ∧ (parsed.json = true ↔ jsonOption ∈ arguments) ∧
      LastPair arguments parsed.delimiters ∧
      ∀ others, others.Perm arguments →
        delimitersOptions others = delimitersOptions arguments →
        parseArguments others = .ok parsed) ∧
    ∀ message, (∃ problem, parseArguments arguments = .error problem ∧ problem.message = message) ↔
      Refused arguments message := by
  refine ⟨⟨?_, ?_⟩, ?_, fun message => ⟨?_, ?_⟩⟩
  · rintro ⟨parsed, hparse⟩
    have hreads := reads_of_parseArguments hparse
    exact ⟨hreads.faultless, parsed.path, hreads.paths_eq⟩
  · rintro ⟨hfaultless, path, hpath⟩
    exact exists_parseArguments hfaultless hpath
  · intro parsed hparse
    have hreads := reads_of_parseArguments hparse
    have hjson := json_of_parseArguments hparse
    refine ⟨hreads.paths_eq, hjson, hreads.lastPair, fun others hperm horder => ?_⟩
    exact parseArguments_of_reads (hreads.perm hperm horder) (hjson.trans hperm.mem_iff.symm)
  · rintro ⟨problem, hparse, rfl⟩
    rcases parseArguments_cases arguments with ⟨parsed, hok, -⟩ | ⟨problem', herror, hrefused⟩
    · rw [hparse] at hok
      cases hok
    · rw [hparse, Except.error.injEq] at herror
      exact herror ▸ hrefused
  · intro hrefused
    rcases parseArguments_cases arguments with ⟨parsed, -, hreads⟩ | ⟨problem, herror, hrefused'⟩
    · exact absurd hreads.paths_eq (hrefused.paths_ne hreads.faultless)
    · exact ⟨problem, herror, hrefused'.message_eq hrefused⟩

/-- The later of two pairs counts wherever the path stands, and an unknown option is named although
another path and a bad pair come behind it. -/
theorem parseArguments_decided_by_order :
    parseArguments ["--json".toList, "--delimiters=<% %>".toList, "a".toList,
        "--delimiters=[ ]".toList] = .ok ⟨"a".toList, true, ⟨"[".toList, "]".toList⟩⟩ ∧
      Refused ["a".toList, "-x".toList, "b".toList, "--delimiters=".toList]
        "unknown option '-x'".toList := by
  have hok : parseArguments ["--delimiters=<% %>".toList, "--delimiters=[ ]".toList, "a".toList,
      "--json".toList] = .ok ⟨"a".toList, true, ⟨"[".toList, "]".toList⟩⟩ := by decide
  obtain ⟨-, -, -, hreorder⟩ := (parseArguments_decided_by_first_fault _).2.1 _ hok
  refine ⟨hreorder _ (by decide) (by decide), ?_⟩
  exact ((parseArguments_decided_by_first_fault _).2.2 _).1
    ⟨.unknownOption "-x".toList, by decide, by decide⟩

end Mustache.Program
