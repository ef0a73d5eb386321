import Mustache.Canonical
import Mustache.Proofs.Lexed

/-! What a line start means at a place among tokens. The plan is filled once more, as a table with
an entry for every place, from the last place to the first: no access is out of range, and an entry
that is looked up will not change any more. So the later tokens alone decide on an entry. A line
start is required exactly in front of tags that hand it on to an inclusion that has indentation. -/
namespace Mustache.Layout

open Canonical

/-- An entry of a table, as it is when it is looked up. -/
structure Look where
  place : Nat
  start : LineStart
  deriving DecidableEq, Repr

/-- A result that takes looking up entries, which are kept, latest first. There is no result if an
access is out of range. -/
abbrev Looking (α : Type) := StateT (List Look) Option α

/-- Look up the entry of a place. -/
def look (table : List LineStart) (place : Nat) : Looking LineStart := do
  let start ← table[place]?
  modify (⟨place, start⟩ :: ·)
  return start

/-- Set the entry of a place. -/
def put? (table : List LineStart) (place : Nat) (start : LineStart) : Option (List LineStart) :=
  if place < table.length then some (table.set place start) else none

/-- The tokens from a place on, which may be the end. -/
def tokensFrom? (tokens : List Token) (place : Nat) : Option (List Token) :=
  if place ≤ tokens.length then some (tokens.drop place) else none

/-- Indentation between a line start and the next tag. -/
def gap? : Token → Option Text
  | .text content => if Text.isIndentation content then some content else none
  | _ => none

/-- What a line start means to the next tag, which may stand behind a gap, given the tokens after
the tag. `next` looks up what a line start after the tag means. -/
def startBefore (tag : Token) (gap : Option Text) (later : List Token) (next : Looking LineStart) :
    Looking LineStart := do
  match tag with
  | .text _ => return .either
  | .inclusion _ (c :: indent) =>
    return if gap.isNone || gap == some (c :: indent) then .required else .either
  | tag =>
    if !tag.canStandAlone then return .either
    else if tag.kind == .inclusion && gap.isSome then return .forbidden
    else if gap.isSome then return if lineEnds later then .forbidden else .either
    else if lineEnds later then return .either
    else return if (← next) == .required then .required else .either

/-- What a line start at a place means, given a table that is filled behind the place. -/
def startAt (tokens : List Token) (place : Nat) (table : List LineStart) : Looking LineStart := do
  let gap := gap? (← tokens[place]?)
  let tagPlace := if gap.isSome then place + 1 else place
  match tokens[tagPlace]? with
  | none => return .either
  | some tag =>
    startBefore tag gap (← tokensFrom? tokens (tagPlace + 1)) (look table (tagPlace + 1))

/-- A round of filling a table: the place whose entry is set, and the entries that are looked up
for it. -/
structure Round where
  place : Nat
  looks : List Look
  deriving DecidableEq, Repr

/-- Set the entries of the first places, from the last of these to the first. -/
def fillBelow (tokens : List Token) : Nat → List LineStart → Option (List Round × List LineStart)
  | 0, table => some ([], table)
  | place + 1, table => do
    let (start, looks) ← (startAt tokens place table).run []
    let (rounds, filled) ← fillBelow tokens place (← put? table place start)
    return (⟨place, looks⟩ :: rounds, filled)

/-- Fill a table with an entry for every place, the end included. -/
def fill (tokens : List Token) : Option (List Round × List LineStart) :=
  fillBelow tokens tokens.length (.replicate (tokens.length + 1) .either)

/-- A round looks up only entries of later places, which are as they are in the whole table. -/
def Round.SeesFinal (table : List LineStart) (round : Round) : Prop :=
  ∀ look ∈ round.looks, round.place < look.place ∧ table[look.place]? = some look.start

/-- An inclusion that has indentation comes first, or its indentation as a text and then the
inclusion. -/
def BeginsIndented (tokens : List Token) : Prop :=
  ∃ name indent later, indent ≠ [] ∧ (tokens = .inclusion name indent :: later ∨
    (∀ c ∈ indent, isIndent c = true) ∧
      tokens = .text indent :: .inclusion name indent :: later)

/-- The tag can stand alone and has no indentation. -/
def HandsOn (tag : Token) : Prop := tag.canStandAlone = true ∧ indentation tag = []

/-- Tags that hand a line start on, or none, lead to an inclusion that has indentation. -/
def LeadsToInclusion (tokens : List Token) : Prop :=
  ∃ tags later, tokens = tags ++ later ∧ (∀ tag ∈ tags, HandsOn tag) ∧ BeginsIndented later

section Table

variable {tokens later : List Token} {token tag : Token} {table : List LineStart} {place : Nat}

@[simp] lemma getElem?_plan_zero (tokens : List Token) :
    (plan tokens)[0]? = some (firstStart tokens) := by
  cases tokens with
  | nil => rfl
  | cons token later => rw [firstStart_cons, plan_cons]; rfl

lemma length_plan (tokens : List Token) : (plan tokens).length = tokens.length + 1 := by
  induction tokens with
  | nil => rfl
  | cons token later ih => rw [plan_cons, List.length_cons, ih, List.length_cons]

/-- The plan of later tokens is the later part of the plan. -/
lemma drop_plan (h : place ≤ tokens.length) :
    (plan tokens).drop place = plan (tokens.drop place) := by
  induction tokens generalizing place with
  | nil =>
    obtain rfl : place = 0 := Nat.le_zero.1 h
    rfl
  | cons token later ih =>
    cases place with
    | zero => rfl
    | succ place =>
      rw [plan_cons, List.drop_succ_cons, List.drop_succ_cons, ih (Nat.le_of_succ_le_succ h)]

lemma getElem?_plan (h : place ≤ tokens.length) :
    (plan tokens)[place]? = some (firstStart (tokens.drop place)) := by
  rw [← getElem?_plan_zero, ← drop_plan h, List.getElem?_drop, Nat.add_zero]

lemma run_look {start : LineStart} (h : table[place]? = some start) (looks : List Look) :
    (look table place).run looks = some (start, ⟨place, start⟩ :: looks) := by
  simp [look, h]

/-- A tag behind a gap is decided on without a look at the table. -/
lemma startBefore_gap (tag : Token) (gap : Text) (later : List Token) (next : Looking LineStart) :
    startBefore tag (some gap) later next = pure (atIndented gap (tag :: later)) := by
  cases tag with
  | inclusion name indent =>
    cases indent with
    | nil => rfl
    | cons c t => simp [startBefore, atIndented]
  | _ =>
    cases hends : lineEnds later <;>
      simp [startBefore, atIndented, hends, Token.canStandAlone, Token.kind, Kind.canStandAlone]

lemma startBefore_of_unindented (htext : tag.isText = false) (h : indentation tag = [])
    (next : Looking LineStart) :
    startBefore tag none later next =
      if tag.canStandAlone && !lineEnds later then
        return if (← next) == .required then .required else .either
      else return .either := by
  cases tag with
  | text content => cases htext
  | inclusion name indent =>
    obtain rfl : indent = [] := h
    cases hends : lineEnds later <;>
      simp [startBefore, hends, Token.canStandAlone, Token.kind, Kind.canStandAlone]
  | _ =>
    cases hends : lineEnds later <;>
      simp [startBefore, hends, Token.canStandAlone, Token.kind, Kind.canStandAlone]

lemma atTag_of_unindented (h : indentation tag = []) (next : LineStart) :
    atTag tag later next =
      if tag.canStandAlone && !lineEnds later && next == .required then .required
      else .either := by
  cases tag with
  | inclusion name indent =>
    obtain rfl : indent = [] := h
    rfl
  | _ => rfl

/-- A tag at the place itself is decided on with at most one look at the table. -/
lemma startBefore_none (htext : tag.isText = false) {start : LineStart}
    (hentry : table[place]? = some start) :
    ∃ looks, (startBefore tag none later (look table place)).run [] =
        some (atTag tag later start, looks) ∧ ∀ l ∈ looks, l = ⟨place, start⟩ := by
  by_cases h : indentation tag = []
  · rw [startBefore_of_unindented htext h, atTag_of_unindented h]
    by_cases hlook : (tag.canStandAlone && !lineEnds later) = true
    · rw [if_pos hlook, hlook]
      exact ⟨[⟨place, start⟩], by simp [run_look hentry], by simp⟩
    · rw [if_neg hlook, Bool.eq_false_iff.2 hlook]
      exact ⟨[], rfl, by simp⟩
  · cases tag with
    | inclusion name indent =>
      obtain ⟨c, t, rfl⟩ := List.exists_cons_of_ne_nil h
      exact ⟨[], rfl, by simp⟩
    | _ => exact absurd rfl h

lemma lineStart_of_gap? {next : LineStart} :
    lineStart token later next = match gap? token with
      | some gap => atIndented gap later
      | none => if token.isText then .either else atTag token later next := by
  cases token with
  | text content =>
    cases h : Text.isIndentation content <;> simp [lineStart, gap?, h, Token.isText]
  | _ => rfl

section Suffix

variable (h : tokens.drop place = token :: later)
include h

lemma getElem?_of_drop : tokens[place]? = some token := by
  rw [← Nat.add_zero place, ← List.getElem?_drop, h]
  rfl

lemma drop_succ_of_drop : tokens.drop (place + 1) = later := by
  rw [← List.drop_drop, h]
  rfl

lemma tokensFrom?_succ_of_drop : tokensFrom? tokens (place + 1) = some later := by
  have hplace := (List.getElem?_eq_some_iff.1 (getElem?_of_drop h)).1
  rw [tokensFrom?, if_pos (Nat.succ_le_of_lt hplace), drop_succ_of_drop h]

/-- A round decides as the plan does, and it looks up no entry but that of the next place. -/
lemma startAt_of_drop {start : LineStart} (hentry : table[place + 1]? = some start) :
    ∃ looks, (startAt tokens place table).run [] = some (lineStart token later start, looks) ∧
      ∀ l ∈ looks, l = ⟨place + 1, start⟩ := by
  have htoken := getElem?_of_drop h
  cases hgap : gap? token with
  | none =>
    have hround : (startAt tokens place table).run [] =
        (startBefore token none later (look table (place + 1))).run [] := by
      simp [startAt, htoken, hgap, tokensFrom?_succ_of_drop h]
    rw [hround, lineStart_of_gap?, hgap]
    cases token with
    | text content => exact ⟨[], rfl, by simp⟩
    | _ => exact startBefore_none rfl hentry
  | some gap =>
    have hround : (startAt tokens place table).run [] = some (atIndented gap later, []) := by
      cases later with
      | nil =>
        have hend : tokens[place + 1]? = none := by
          rw [List.getElem?_eq_none_iff, ← List.drop_eq_nil_iff]
          exact drop_succ_of_drop h
        simp [startAt, htoken, hgap, hend, atIndented]
      | cons tag rest =>
        have hnext := drop_succ_of_drop h
        simp [startAt, htoken, hgap, getElem?_of_drop hnext, tokensFrom?_succ_of_drop hnext,
          startBefore_gap]
    rw [hround, lineStart_of_gap?, hgap]
    exact ⟨[], rfl, by simp⟩

end Suffix

/-- A table in which only the entries of the first places are yet to be set. -/
def filledFrom (tokens : List Token) (place : Nat) : List LineStart :=
  .replicate place .either ++ plan (tokens.drop place)

lemma getElem?_filledFrom (tokens : List Token) (place : Nat) :
    (filledFrom tokens place)[place]? = some (firstStart (tokens.drop place)) := by
  rw [filledFrom, List.getElem?_append_right (by simp), List.length_replicate, Nat.sub_self,
    getElem?_plan_zero]

lemma put?_filledFrom (h : place < tokens.length) :
    put? (filledFrom tokens (place + 1)) place (firstStart (tokens.drop place)) =
      some (filledFrom tokens place) := by
  have hplace : place < (filledFrom tokens (place + 1)).length := by
    simp only [filledFrom, List.length_append, List.length_replicate]
    omega
  rw [put?, if_pos hplace, filledFrom, filledFrom, List.replicate_succ', List.append_assoc,
    List.set_append_right _ _ (by simp), List.length_replicate, Nat.sub_self,
    List.drop_eq_getElem_cons h, firstStart_cons, plan_cons]
  rfl

/-- A round of a partly filled table sees only entries that are set. -/
lemma startAt_filledFrom (h : place < tokens.length) :
    ∃ looks, (startAt tokens place (filledFrom tokens (place + 1))).run [] =
        some (firstStart (tokens.drop place), looks) ∧
      Round.SeesFinal (plan tokens) ⟨place, looks⟩ := by
  have hdrop := List.drop_eq_getElem_cons h
  obtain ⟨looks, hstart, hlooks⟩ := startAt_of_drop hdrop (getElem?_filledFrom tokens (place + 1))
  refine ⟨looks, ?_, ?_⟩
  · rw [hdrop, firstStart_cons]
    exact hstart
  · intro l hl
    rw [hlooks l hl]
    exact ⟨Nat.lt_succ_self place, getElem?_plan h⟩

/-- The rest of the rounds, by induction on the number of places that are left. -/
lemma fillBelow_filledFrom {n : Nat} (h : n ≤ tokens.length) :
    ∃ rounds, fillBelow tokens n (filledFrom tokens n) = some (rounds, plan tokens) ∧
      rounds.map Round.place = (List.range n).reverse ∧
      ∀ round ∈ rounds, round.SeesFinal (plan tokens) := by
  induction n with
  | zero => exact ⟨[], rfl, rfl, by simp⟩
  | succ place ih =>
    obtain ⟨looks, hstart, hlooks⟩ := startAt_filledFrom h
    obtain ⟨rounds, hfill, hplaces, hfinal⟩ := ih (Nat.le_of_succ_le h)
    refine ⟨⟨place, looks⟩ :: rounds, ?_, ?_, List.forall_mem_cons.2 ⟨hlooks, hfinal⟩⟩
    · simp [fillBelow, hstart, put?_filledFrom h, hfill]
    · simp [hplaces, List.range_succ]

end Table

section Required

variable {token : Token} {later : List Token} {gap : Text}

lemma beginsIndented_text_iff : BeginsIndented (.text gap :: later) ↔
    Text.isIndentation gap = true ∧ ∃ name rest, later = .inclusion name gap :: rest := by
  constructor
  · rintro ⟨name, indent, rest, hne, h | ⟨hindent, h⟩⟩
    · cases h
    · obtain ⟨⟨rfl⟩, rfl⟩ := List.cons.inj h
      exact ⟨by simpa [Text.isIndentation, hne] using hindent, name, rest, rfl⟩
  · rintro ⟨hgap, name, rest, rfl⟩
    simp only [Text.isIndentation, Bool.and_eq_true, Bool.not_eq_true',
      List.isEmpty_eq_false_iff, List.all_eq_true] at hgap
    exact ⟨name, gap, rest, hgap.1, .inr ⟨hgap.2, rfl⟩⟩

lemma leadsToInclusion_cons_iff : LeadsToInclusion (token :: later) ↔
    BeginsIndented (token :: later) ∨ HandsOn token ∧ LeadsToInclusion later := by
  constructor
  · rintro ⟨tags, rest, hsplit, htags, hrest⟩
    cases tags with
    | nil =>
      rw [hsplit]
      exact .inl hrest
    | cons tag tags =>
      obtain ⟨rfl, rfl⟩ := List.cons.inj hsplit
      rw [List.forall_mem_cons] at htags
      exact .inr ⟨htags.1, tags, rest, rfl, htags.2, hrest⟩
  · rintro (h | ⟨htoken, tags, rest, rfl, htags, hrest⟩)
    · exact ⟨[], token :: later, rfl, by simp, h⟩
    · exact ⟨token :: tags, rest, rfl, List.forall_mem_cons.2 ⟨htoken, htags⟩, hrest⟩

lemma atTag_eq_required_iff (h : indentation token = []) :
    atTag token later (firstStart later) = .required ↔
      token.canStandAlone = true ∧ firstStart later = .required := by
  rw [atTag_of_unindented h]
  by_cases hnext : firstStart later = .required
  · -- A line start is required only where the line would not end anyway.
    have hends : lineEnds later = false := by
      rw [Bool.eq_false_iff]
      intro hlater
      rw [firstStart_eq_either_of_lineEnds hlater] at hnext
      cases hnext
    simp [hnext, hends]
  · simp [hnext]

lemma not_beginsIndented_cons (htext : token.isText = false) (h : indentation token = []) :
    ¬ BeginsIndented (token :: later) := by
  rintro ⟨name, indent, rest, hne, hsplit | ⟨-, hsplit⟩⟩
  · rw [(List.cons.inj hsplit).1] at h
    exact hne h
  · rw [(List.cons.inj hsplit).1] at htext
    cases htext

lemma atIndented_eq_required_iff (hgap : gap ≠ []) : atIndented gap later = .required ↔
    ∃ name rest, later = .inclusion name gap :: rest := by
  cases later with
  | nil => simp [atIndented]
  | cons tag rest =>
    cases tag with
    | inclusion name indent =>
      cases indent with
      | nil => simp [atIndented, hgap.symm]
      | cons c t =>
        by_cases h : gap = c :: t
        · simp [atIndented, h]
        · simp [atIndented, h, Ne.symm h]
    | _ => simp only [atIndented]; split <;> simp

lemma lineStart_text_eq_required_iff {next : LineStart} :
    lineStart (.text gap) later next = .required ↔ BeginsIndented (.text gap :: later) := by
  rw [beginsIndented_text_iff, lineStart]
  by_cases hgap : Text.isIndentation gap = true
  · have hne : gap ≠ [] := by
      rintro rfl
      cases hgap
    rw [if_pos hgap, atIndented_eq_required_iff hne, and_iff_right hgap]
  · simp [hgap]

/-- A line start is required in front of a token that needs it, or that hands it on to one. -/
lemma firstStart_cons_eq_required_iff : firstStart (token :: later) = .required ↔
    BeginsIndented (token :: later) ∨ HandsOn token ∧ firstStart later = .required := by
  rw [firstStart_cons]
  have hunindented (htext : token.isText = false) (h : indentation token = []) :
      atTag token later (firstStart later) = .required ↔
        BeginsIndented (token :: later) ∨ HandsOn token ∧ firstStart later = .required := by
    rw [atTag_eq_required_iff h, HandsOn, and_iff_left h,
      or_iff_right (not_beginsIndented_cons htext h)]
  cases token with
  | text gap =>
    rw [lineStart_text_eq_required_iff]
    simp [HandsOn, Token.canStandAlone, Token.kind, Kind.canStandAlone]
  | inclusion name indent =>
    cases indent with
    | nil => exact hunindented rfl rfl
    | cons c t => exact iff_of_true rfl (.inl ⟨name, c :: t, later, by simp, .inl rfl⟩)
  | _ => exact hunindented rfl rfl

lemma firstStart_eq_required_iff {tokens : List Token} :
    firstStart tokens = .required ↔ LeadsToInclusion tokens := by
  induction tokens with
  | nil => simp [LeadsToInclusion, BeginsIndented]
  | cons token later ih => rw [firstStart_cons_eq_required_iff, leadsToInclusion_cons_iff, ih]

end Required

/-- What a line start means at a place is decided by the tokens behind the place, whatever tokens
there are. The plan is what filling a table comes to, from the last place to the first: no access
is out of range, and no entry is looked up before it is final. An entry of the plan is the first
one of the plan of the tokens from there on, and a line start is required exactly if these lead to
an inclusion that has indentation. -/
theorem plan_decided_by_rest (tokens : List Token) :
    (∃ rounds, fill tokens = some (rounds, plan tokens) ∧
      rounds.map Round.place = (List.range tokens.length).reverse ∧
      ∀ round ∈ rounds, round.SeesFinal (plan tokens)) ∧
    (plan tokens).length = tokens.length + 1 ∧
    ∀ i ≤ tokens.length, ∃ start, (plan tokens)[i]? = some start ∧
      (plan (tokens.drop i))[0]? = some start ∧
      (start = .required ↔ LeadsToInclusion (tokens.drop i)) := by
  refine ⟨?_, length_plan tokens, fun i hi => ?_⟩
  · have hstart : filledFrom tokens tokens.length = .replicate (tokens.length + 1) .either := by
      rw [filledFrom, List.drop_length, plan_nil, List.replicate_succ']
    rw [fill, ← hstart]
    exact fillBelow_filledFrom le_rfl
  · exact ⟨firstStart (tokens.drop i), getElem?_plan hi, getElem?_plan_zero _,
      firstStart_eq_required_iff⟩

/-- The comment hands the line start on to the text, which is the indentation of the inclusion. The
round of the comment looks up the entry of the text. -/
theorem plan_decided_by_rest_of_comment :
    let tokens : List Token := [.text ['\n'], .comment, .text ['\t'], .inclusion ['p'] ['\t'],
      .escaped ['x']]
    (∃ rounds, fill tokens = some (rounds, plan tokens) ∧ ⟨1, [⟨2, .required⟩]⟩ ∈ rounds ∧
      (plan tokens)[2]? = some .required) ∧
    (plan tokens)[1]? = some .required ∧ (plan (tokens.drop 1))[0]? = some .required := by
  intro tokens
  obtain ⟨⟨rounds, hfill, -, hfinal⟩, -, hentries⟩ := plan_decided_by_rest tokens
  have hround : (⟨1, [⟨2, .required⟩]⟩ : Round) ∈ rounds := by
    have hlogged : (fill tokens).all fun r => decide (⟨1, [⟨2, .required⟩]⟩ ∈ r.1) := by decide
    rw [hfill] at hlogged
    exact of_decide_eq_true hlogged
  refine ⟨⟨rounds, hfill, hround, (hfinal _ hround _ (List.mem_singleton_self _)).2⟩, ?_⟩
  obtain ⟨start, hstart, hrest, hrequired⟩ := hentries 1 (by decide)
  have hleads : LeadsToInclusion (tokens.drop 1) :=
    ⟨[.comment], tokens.drop 2, rfl, List.forall_mem_singleton.2 ⟨rfl, rfl⟩,
      ['p'], ['\t'], [.escaped ['x']], by simp, .inr ⟨by simp [isIndent], rfl⟩⟩
  obtain rfl := hrequired.2 hleads
  exact ⟨hstart, hrest⟩

end Mustache.Layout
