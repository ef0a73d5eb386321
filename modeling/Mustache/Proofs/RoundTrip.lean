import Mustache.Proofs.CanonicalTag
import Mustache.Proofs.Lexed

/-! The canonical form of a template has the tokens of the template. The text that is written is
cut along the tokens, and the places where it starts a line are compared with those where the
template did: a tag that stood alone gets a line again, and a line that the writer starts on its
own changes neither the tag behind it nor the text around it. -/
namespace Mustache

/-- No change of delimiters among the tokens holds the closing sequence in effect before it. -/
def DirectivesFit (d : Delimiters) (tokens : List Token) : Prop :=
  ∀ earlier pair later, tokens = earlier ++ .setDelimiters pair :: later →
    ¬ (pairAfter d earlier).closing <:+: pair.display ++ ['=']

namespace DirectivesFit

variable {d : Delimiters}

lemma of_append {earlier later : List Token} (h : DirectivesFit d (earlier ++ later)) :
    DirectivesFit (pairAfter d earlier) later := by
  intro earlier' pair later' hlater
  rw [← pairAfter_append]
  exact h (earlier ++ earlier') pair later' (by rw [hlater, List.append_assoc])

lemma nil : DirectivesFit d [] := by
  intro earlier pair later h
  simp at h

lemma cons_iff {token : Token} {later : List Token} :
    DirectivesFit d (token :: later) ↔
      (∀ pair, token = .setDelimiters pair → ¬ d.closing <:+: pair.display ++ ['=']) ∧
        DirectivesFit (token.delimitersAfter d) later := by
  constructor
  · intro h
    have htail : DirectivesFit d ([token] ++ later) := h
    refine ⟨?_, htail.of_append⟩
    rintro pair rfl
    exact h [] pair later rfl
  · rintro ⟨hhead, hlater⟩ earlier pair later' h
    cases earlier with
    | nil =>
      obtain ⟨rfl, -⟩ := List.cons.inj h
      exact hhead pair rfl
    | cons token' earlier =>
      obtain ⟨rfl, hrest⟩ := List.cons.inj h
      exact hlater earlier pair later' hrest

end DirectivesFit

namespace Canonical

open Layout

variable {d : Delimiters} {token : Token} {later : List Token} {written : Text}

/-- The line feed behind a tag, if the tag has a line of its own. -/
def feed (own : Bool) : Text := if own then ['\n'] else []

lemma reverse_feed (own : Bool) : (feed own).reverse = feed own := by
  cases own <;> rfl

/-- The indentation in front of a tag, if the tag has a line of its own. -/
def margin (own : Bool) (token : Token) : Text := if own then indentation token else []

@[simp] lemma margin_true (token : Token) : margin true token = indentation token := rfl

@[simp] lemma margin_false (token : Token) : margin false token = [] := rfl

lemma canStandAlone_of_indentation (h : indentation token ≠ []) : token.canStandAlone = true := by
  cases token with
  | inclusion name i => rfl
  | _ => exact absurd rfl h

lemma ownsLine_iff {next : LineStart} :
    ownsLine token written later next = true ↔
      Text.Breaks written ∧ (indentation token ≠ [] ∨
        token.canStandAlone = true ∧ (lineEnds later = true ∨ next ≠ .forbidden)) := by
  rw [← Text.lineIndent?_eq_some_nil_iff]
  unfold ownsLine
  split
  next h => simp [h]
  next h => simp [h]
  next h =>
    rw [h]
    cases token with
    | inclusion name i => cases i <;> simp [indentation]
    | _ => simp [indentation]

lemma ownsLine_text (gap : Text) (next : LineStart) :
    ownsLine (.text gap) written later next = false := by
  rw [Bool.eq_false_iff, ne_eq, ownsLine_iff]
  simp [indentation, Token.canStandAlone, Token.kind, Kind.canStandAlone]

lemma reverse_place (own : Bool) : (place d token own).reverse =
    feed own ++ ((spell d token).reverse ++ (margin own token).reverse) := by
  cases own <;> simp [place, feed]

/-- Texts are written as they are, without a line of their own. -/
lemma writeFrom_textTokens (gap : Text) (tokens : List Token) :
    writeFrom d written (Cut.textTokens gap ++ tokens) (plan (Cut.textTokens gap ++ tokens)) =
      writeFrom d (gap.reverse ++ written) tokens (plan tokens) := by
  by_cases hgap : gap = []
  · rw [hgap, Cut.textTokens_nil]
    rfl
  · rw [Cut.textTokens_of_ne_nil hgap, List.singleton_append, plan_cons, writeFrom]
    simp only [ownsLine_text, List.tail_cons]
    rfl

/-- A tag is written with its line around it, if it has one of its own. -/
lemma writeFrom_tag {own : Bool} (hown : ownsLine token written later (firstStart later) = own) :
    writeFrom d written (token :: later) (plan (token :: later)) =
      writeFrom (token.delimitersAfter d)
        (feed own ++ ((spell d token).reverse ++ ((margin own token).reverse ++ written)))
        later (plan later) := by
  rw [firstStart] at hown
  rw [plan_cons, writeFrom]
  simp only [List.tail_cons, hown, reverse_place, List.append_assoc]

/-- A token as it is written: what precedes it, newest character first, the pair in effect, and
whether it has a line of its own. -/
structure Placement where
  written : Text
  pair : Delimiters
  token : Token
  ownLine : Bool

namespace Placement

/-- The text that is written for the token. -/
def text (p : Placement) : Text := place p.pair p.token p.ownLine

/-- What a run over the writing is to log of the tag; a text is none. -/
def tag? (p : Placement) : Option (Position × Kind × Bool) :=
  if p.token.isText then none
  else some (Position.start.after ((margin p.ownLine p.token).reverse ++ p.written).reverse,
    p.token.kind, p.ownLine)

end Placement

/-- How tokens are written behind what is written already. -/
def placements (d : Delimiters) (written : Text) : List Token → List Placement
  | [] => []
  | token :: later =>
    let own := ownsLine token written later (firstStart later)
    ⟨written, d, token, own⟩ ::
      placements (token.delimitersAfter d) ((place d token own).reverse ++ written) later

lemma tags_placements_textTokens (gap : Text) (tokens : List Token) :
    (placements d written (Cut.textTokens gap ++ tokens)).filterMap Placement.tag? =
      (placements d (gap.reverse ++ written) tokens).filterMap Placement.tag? := by
  by_cases hgap : gap = []
  · rw [hgap, Cut.textTokens_nil]
    rfl
  · rw [Cut.textTokens_of_ne_nil hgap, List.singleton_append, placements]
    simp only [ownsLine_text]
    rfl

lemma tags_placements_tag {own : Bool} (htoken : token.isText = false)
    (hown : ownsLine token written later (firstStart later) = own) :
    (placements d written (token :: later)).filterMap Placement.tag? =
      (Position.start.after ((margin own token).reverse ++ written).reverse, token.kind, own) ::
        (placements (token.delimitersAfter d)
          (feed own ++ ((spell d token).reverse ++ ((margin own token).reverse ++ written)))
          later).filterMap Placement.tag? := by
  simp [placements, hown, reverse_place, Placement.tag?, htoken]

/-- What is written may stand for what preceded the tokens in their template: both start a line,
or neither does, or only the writing does and the tokens do not forbid it. -/
def Replaces (written before : Text) (tokens : List Token) : Prop :=
  Text.Breaks before ∧ Text.Breaks written ∨
    Text.lineIndent? before = none ∧ (Text.lineIndent? written = none ∨
      Text.Breaks written ∧ firstStart tokens ≠ .forbidden)

section Step

variable {before gap : Text} {s : Spelling} {alone : Bool}

/-- A tag that stood alone is written behind a line end. -/
lemma breaks_of_alone (htag : TagLexed d before gap s true later) {tokens : List Token}
    (hw : Replaces written before tokens) :
    Text.Breaks ((Cut.kept false true gap).reverse ++ written) := by
  obtain ⟨w, hgap, hindent⟩ := Cut.exists_kept_append true gap
  have hline : Text.AtLineStart ((Cut.kept false true gap).reverse ++ before) := by
    have h := (htag.atStart rfl).2
    rw [hgap, List.reverse_append, List.append_assoc, ← Text.isSome_lineIndent?_iff,
      Text.lineIndent?_reverse_append hindent, Option.isSome_map] at h
    exact Text.isSome_lineIndent?_iff.1 h
  rw [← Text.isSome_lineIndent?_iff] at hline
  rcases Text.dropEndWhile_eq_nil_or_concat isIndent gap with hnil | ⟨u, c, hconcat, hc⟩
  · rw [show Cut.kept false true gap = [] from hnil] at hline ⊢
    rcases hw with ⟨-, hw⟩ | ⟨hnone, -⟩
    · exact hw
    · rw [List.reverse_nil, List.nil_append, hnone] at hline
      cases hline
  · rw [show Cut.kept false true gap = u ++ [c] from hconcat, List.reverse_append,
      List.reverse_singleton, List.singleton_append, List.cons_append] at hline ⊢
    rw [Text.breaks_cons]
    by_contra hfeed
    simp [Text.lineIndent?, hc, hfeed] at hline

/-- A tag that did not stand alone sees the same in front of it on its line as in its template, or
a line that the writer has started; then it starts that line itself, or it is a tag that may stand
behind indentation there. -/
lemma lineIndent?_written
    (hw : Replaces written before
      (Cut.textTokens gap ++ s.token (gap.reverse ++ before) :: later)) :
    Text.lineIndent? (gap.reverse ++ written) = Text.lineIndent? (gap.reverse ++ before) ∨
      Text.lineIndent? (gap.reverse ++ before) = none ∧ (Text.Breaks (gap.reverse ++ written) ∨
        (∀ name i, s.token (gap.reverse ++ before) ≠ .inclusion name i) ∧
        ((s.token (gap.reverse ++ before)).canStandAlone = true → lineEnds later = false)) := by
  rcases hw with ⟨hbefore, hwritten⟩ | ⟨hbefore, hwritten | ⟨hwritten, hstart⟩⟩
  · left
    rw [← Text.lineIndent?_eq_some_nil_iff] at hbefore hwritten
    exact Text.lineIndent?_append_congr (hwritten.trans hbefore.symm) _
  · left
    exact Text.lineIndent?_append_congr (hwritten.trans hbefore.symm) _
  by_cases hindent : ∀ c ∈ gap, isIndent c = true
  · right
    have hnone : Text.lineIndent? (gap.reverse ++ before) = none := by
      rw [Text.lineIndent?_reverse_append hindent, hbefore]
      rfl
    refine ⟨hnone, ?_⟩
    by_cases hgap : gap = []
    · left
      rw [hgap]
      exact hwritten
    · right
      have hindentation : Text.isIndentation gap = true := by
        simpa [Text.isIndentation, hgap] using hindent
      rw [Cut.textTokens_of_ne_nil hgap, List.singleton_append, firstStart_cons, ne_eq,
        lineStart_text_eq_forbidden_iff] at hstart
      have hname : ∀ name i, s.token (gap.reverse ++ before) ≠ .inclusion name i := by
        intro name i h
        have hempty : i = [] := by
          rw [Spelling.indentation_of_inclusion h, hnone]
          rfl
        rw [hempty] at h
        exact hstart ⟨hindentation, .inl ⟨name, h⟩⟩
      refine ⟨hname, fun hkind => ?_⟩
      rw [Bool.eq_false_iff]
      exact fun hends => hstart ⟨hindentation, .inr ⟨hname, hkind, hends⟩⟩
  · left
    simp only [not_forall, Bool.not_eq_true] at hindent
    obtain ⟨c, hc, hn⟩ := hindent
    rw [Text.lineIndent?_append_of_mem (List.mem_reverse.2 hc) hn,
      Text.lineIndent?_append_of_mem (List.mem_reverse.2 hc) hn]

lemma isIndent_of_mem_indentation {x : Text} {c : Char} (hc : c ∈ indentation (s.token x)) :
    isIndent c = true := by
  cases htoken : s.token x with
  | inclusion name i =>
    rw [htoken, indentation, Spelling.indentation_of_inclusion htoken] at hc
    cases hlook : Text.lineIndent? x with
    | none => simp [hlook] at hc
    | some w =>
      rw [hlook] at hc
      exact Text.isIndent_of_lineIndent?_eq_some hlook c hc
  | _ => simp [htoken, indentation] at hc

/-- A tag that stood alone gets a line of its own. -/
lemma ownsLine_of_alone {d' : Delimiters} {tokens : List Token}
    (htag : TagLexed d before gap s true later) (hlater : Lexed d' [] later)
    (hw : Replaces written before tokens) :
    ownsLine (s.token (gap.reverse ++ before)) ((Cut.kept false true gap).reverse ++ written) later
      (firstStart later) = true :=
  ownsLine_iff.2 ⟨breaks_of_alone htag hw,
    .inr ⟨(htag.atStart rfl).1, .inr hlater.firstStart_ne_forbidden⟩⟩

/-- A tag that did not stand alone gets a line of its own only where the tokens behind it may
start a line. -/
lemma firstStart_ne_forbidden_of_ownsLine
    (hw : Replaces written before (Cut.textTokens gap ++ s.token (gap.reverse ++ before) :: later))
    (hown : ownsLine (s.token (gap.reverse ++ before)) (gap.reverse ++ written) later
      (firstStart later) = true) : firstStart later ≠ .forbidden := by
  obtain ⟨hbreaks, hindent | ⟨-, hends | hnext⟩⟩ := ownsLine_iff.1 hown
  · exfalso
    apply hindent
    cases htoken : s.token (gap.reverse ++ before) with
    | inclusion name i =>
      rw [indentation, Spelling.indentation_of_inclusion htoken]
      rcases lineIndent?_written hw with heq | ⟨hnone, -⟩
      · rw [← heq, Text.lineIndent?_eq_some_nil_iff.2 hbreaks]
        rfl
      · rw [hnone]
        rfl
    | _ => rfl
  · exact firstStart_ne_forbidden_of_lineEnds hends
  · exact hnext

/-- An inclusion gets its indentation back. -/
lemma token_of_written {own : Bool}
    (hw : Replaces written before
      (Cut.textTokens (Cut.kept false alone gap) ++ s.token (gap.reverse ++ before) :: later))
    (halone : alone = true → own = true)
    (hown : own = true → Text.Breaks ((Cut.kept false alone gap).reverse ++ written)) :
    s.token ((margin own (s.token (gap.reverse ++ before))).reverse ++
      ((Cut.kept false alone gap).reverse ++ written)) = s.token (gap.reverse ++ before) := by
  cases own with
  | true =>
    have hlook := Text.lineIndent?_reverse_append
      (fun c hc => isIndent_of_mem_indentation (s := s) (x := gap.reverse ++ before) hc)
      ((Cut.kept false alone gap).reverse ++ written)
    rw [Text.lineIndent?_eq_some_nil_iff.2 (hown rfl)] at hlook
    cases htoken : s.token (gap.reverse ++ before) with
    | inclusion name i =>
      rw [htoken] at hlook
      rw [Spelling.token_of_inclusion htoken, margin_true, hlook]
      rfl
    | _ =>
      rw [← htoken]
      exact Spelling.token_of_ne_inclusion (by simp [htoken]) _
  | false =>
    cases alone with
    | true => cases halone rfl
    | false =>
      rw [Cut.kept_false_false] at hw ⊢
      rw [margin_false, List.reverse_nil, List.nil_append]
      rcases lineIndent?_written hw with heq | ⟨hnone, hbreaks | ⟨hname, -⟩⟩
      · exact s.token_congr heq
      · apply s.token_congr_getD
        rw [hnone, Text.lineIndent?_eq_some_nil_iff.2 hbreaks]
        rfl
      · exact Spelling.token_of_ne_inclusion hname _

/-- The tag stands alone where it is written exactly if it gets a line of its own. -/
lemma standsAlone_iff {own : Bool} {after : Text}
    (htag : TagLexed d before gap s alone later)
    (hw : Replaces written before
      (Cut.textTokens (Cut.kept false alone gap) ++ s.token (gap.reverse ++ before) :: later))
    (halone : alone = true → own = true)
    (hown : ownsLine (s.token (gap.reverse ++ before))
      ((Cut.kept false alone gap).reverse ++ written) later (firstStart later) = own)
    (hfeed : own = true → Text.AtLineEnd after)
    (hends : own = false → Text.AtLineEnd after → lineEnds later = true) :
    StandsAlone (s.token (gap.reverse ++ before))
      ((margin own (s.token (gap.reverse ++ before))).reverse ++
        ((Cut.kept false alone gap).reverse ++ written)) after ↔ own = true := by
  cases own with
  | true =>
    obtain ⟨hbreaks, hkind⟩ := ownsLine_iff.1 hown
    refine iff_of_true (standsAlone_iff_canStandAlone.2 ⟨?_, ?_, hfeed rfl⟩) rfl
    · rcases hkind with hindent | ⟨hkind, -⟩
      · exact canStandAlone_of_indentation hindent
      · exact hkind
    · rw [← Text.isSome_lineIndent?_iff, margin_true,
        Text.lineIndent?_reverse_append fun c hc => isIndent_of_mem_indentation hc,
        Text.lineIndent?_eq_some_nil_iff.2 hbreaks]
      rfl
  | false =>
    refine iff_of_false ?_ (by simp)
    rw [standsAlone_iff_canStandAlone]
    rintro ⟨hkind, hline, hend⟩
    have hend := hends rfl hend
    have hbreaks : ¬ Text.Breaks ((Cut.kept false alone gap).reverse ++ written) := by
      intro h
      rw [ownsLine_iff.2 ⟨h, .inr ⟨hkind, .inl hend⟩⟩] at hown
      cases hown
    cases alone with
    | true => cases halone rfl
    | false =>
      -- The indentation before the tag is as in the template, where the tag shared its line.
      rcases lineIndent?_written hw with heq | ⟨-, hb | ⟨-, hlater⟩⟩
      · have hline' : Text.AtLineStart (gap.reverse ++ before) :=
          (Text.atLineStart_congr heq).1 hline
        rw [htag.shared rfl hkind hline'] at hend
        cases hend
      · exact hbreaks hb
      · rw [hlater hkind] at hend
        cases hend

lemma kept_feed (own : Bool) (t : Text) : Cut.kept own false (feed own ++ t) = t := by
  cases own
  · rfl
  · exact Text.afterLine_append_lineFeed (w := []) (by simp) t

/-- Of the gap that is written before a tag, the text of the template is kept. -/
lemma kept_written {own own' : Bool} {t i : Text} (hi : ∀ c ∈ i, isIndent c = true)
    (hshared : own' = false → i = []) (hown : own' = true → Text.EndsLine t) :
    Cut.kept own own' (feed own ++ (t ++ i)) = t := by
  cases own' with
  | false =>
    rw [hshared rfl, List.append_nil]
    exact kept_feed own t
  | true =>
    have hdrop : Text.dropEndWhile isIndent i = [] := List.rdropWhile_eq_nil_iff.2 hi
    calc Cut.kept own true (feed own ++ (t ++ i))
        = Text.dropEndWhile isIndent (Cut.kept own false (feed own ++ (t ++ i))) := rfl
      _ = Text.dropEndWhile isIndent (t ++ i) := by rw [kept_feed]
      _ = t := by rw [Text.dropEndWhile_append_of_endsLine (hown rfl), hdrop, List.append_nil]

lemma firstAfter_feed {p t : Text} (hp : Delimiters.isMark p = true) (ht : FirstAfter p t)
    (own : Bool) : FirstAfter p (feed own ++ t) := by
  cases own
  · exact ht
  · exact ht.cons (ne_nil_of_isMark hp) (notMem_of_isMark hp rfl)

lemma not_infix_feed {p t : Text} (hp : Delimiters.isMark p = true) (ht : ¬ p <:+: t)
    (own : Bool) : ¬ p <:+: feed own ++ t := by
  cases own
  · exact ht
  · intro h
    rcases (infix_append_cons_iff (u := []) (notMem_of_isMark hp rfl)).1 h with h | h
    · exact ne_nil_of_isMark hp (List.infix_nil.1 h)
    · exact ht h

/-- The opening sequence is not completed early by indentation behind a line end. -/
lemma firstAfter_of_endsLine {p t i : Text} (hp : Delimiters.isMark p = true)
    (ht : ¬ p <:+: t) (hline : Text.EndsLine t) (hi : ∀ c ∈ i, isIndent c = true) :
    FirstAfter p (t ++ i) := by
  have hblank : ∀ c ∈ i, isBlank c = true := fun c hc => isBlank_of_isIndent (hi c hc)
  rcases hline with rfl | ⟨u, rfl⟩
  · exact firstAfter_of_blanks hp hblank
  · have hu : ¬ p <:+: u := fun h => ht (h.trans (List.prefix_append _ _).isInfix)
    rw [List.append_assoc, List.singleton_append]
    exact (firstAfter_append_cons_iff (notMem_of_isMark hp rfl)).2
      ⟨hu, firstAfter_of_blanks hp hblank⟩

/-- What is written up to the end of a tag may stand for the template up to there. -/
lemma replaces_of_tag (hd : d.Valid) (s s' : Spelling) {own : Bool}
    (halone : alone = true → own = true)
    (hstart : alone = false → own = true → firstStart later ≠ .forbidden) (y : Text) :
    Replaces (feed own ++ ((s'.text d).reverse ++ y))
      (if alone then [] else (s.text d).reverse) later := by
  cases alone with
  | true =>
    rw [halone rfl]
    exact .inl ⟨Text.breaks_nil, Text.breaks_cons.2 rfl⟩
  | false =>
    have hnone := s.lineIndent?_text hd []
    rw [List.append_nil] at hnone
    refine .inr ⟨hnone, ?_⟩
    cases own with
    | true => exact .inr ⟨Text.breaks_cons.2 rfl, hstart rfl rfl⟩
    | false => exact .inl (s'.lineIndent?_text hd y)

end Step

/-- A tag with the text before it, as they are written behind `written`: the opening sequence is
found where it is meant to be, and the tag that is read stands alone exactly if it was given a line
of its own. -/
structure TagWritten (d : Delimiters) (written content : Text) (s : Spelling) (token : Token)
    (own : Bool) (later : List Token) : Prop where
  first : FirstAfter d.opening (content ++ margin own token)
  indent : ∀ c ∈ margin own token, isIndent c = true
  endsLine : own = true → Text.EndsLine content
  read : s.token ((margin own token).reverse ++ (content.reverse ++ written)) = token
  alone : ∀ after, (own = true → Text.AtLineEnd after) →
    (own = false → Text.AtLineEnd after → lineEnds later = true) →
    (StandsAlone token ((margin own token).reverse ++ (content.reverse ++ written)) after ↔
      own = true)

lemma tagWritten_of_tagLexed {before gap : Text} {s s' : Spelling} {alone own : Bool}
    (hd : d.Valid) (htag : TagLexed d before gap s alone later) (hsame : s'.token = s.token)
    (hw : Replaces written before
      (Cut.textTokens (Cut.kept false alone gap) ++ s.token (gap.reverse ++ before) :: later))
    (halone : alone = true → own = true)
    (hown : ownsLine (s.token (gap.reverse ++ before))
      ((Cut.kept false alone gap).reverse ++ written) later (firstStart later) = own) :
    TagWritten d written (Cut.kept false alone gap) s' (s.token (gap.reverse ++ before)) own
      later := by
  have hbreaks : own = true → Text.Breaks ((Cut.kept false alone gap).reverse ++ written) :=
    fun h => (ownsLine_iff.1 (hown.trans h)).1
  have hindent : ∀ c ∈ margin own (s.token (gap.reverse ++ before)), isIndent c = true := by
    cases own with
    | true => exact fun c hc => isIndent_of_mem_indentation hc
    | false => simp
  have hends : own = true → Text.EndsLine (Cut.kept false alone gap) :=
    fun h => Text.endsLine_of_breaks (hbreaks h)
  refine ⟨?_, hindent, hends, ?_, fun after => standsAlone_iff htag hw halone hown⟩
  · cases own with
    | true =>
      have hno : ¬ d.opening <:+: Cut.kept false alone gap := by
        obtain ⟨w, hgap, -⟩ := Cut.exists_kept_append alone gap
        intro h
        apply htag.first.not_infix (ne_nil_of_isMark hd.1)
        rw [hgap]
        exact h.trans (List.prefix_append _ _).isInfix
      exact firstAfter_of_endsLine hd.1 hno (hends rfl) hindent
    | false =>
      cases alone with
      | true => cases halone rfl
      | false =>
        rw [margin_false, List.append_nil]
        exact htag.first
  · rw [hsame]
    exact token_of_written hw halone hbreaks

section Tag

variable {before content t x : Text} {s : Spelling} {own own' : Bool} {cut : Cut}

/-- In front of a cut that begins with the line feed behind a tag, the tag stands alone. -/
lemma TagWritten.standsAlone_iff (h : TagWritten d written content s token own later)
    (hd : (s.next d).Valid) (hcut : cut.WellFormed (s.next d))
    (htext : cut.text (s.next d) = feed own ++ t)
    (htokens : cut.tokensFrom [] (s.next d) x own = later) :
    StandsAlone token ((margin own token).reverse ++ (content.reverse ++ written))
      (cut.text (s.next d)) ↔ own = true := by
  apply h.alone
  · rintro rfl
    rw [htext]
    exact Text.atLineEnd_lineFeed (w := []) (by simp) t
  · rintro rfl hend
    rw [← htokens]
    exact (Cut.lineEnds_tokensFrom hd hcut _).2 hend

lemma reverse_gap (own own' : Bool) (token : Token) (before content : Text) :
    (feed own ++ (content ++ margin own' token)).reverse ++ before =
      (margin own' token).reverse ++ (content.reverse ++ (feed own ++ before)) := by
  simp [reverse_feed]

/-- A tag is put in front of a cut with the gap that is written before it. -/
lemma TagWritten.tokensFrom_tag
    (h : TagWritten d (feed own ++ before) content s token own' later)
    (hd : (s.next d).Valid) (hcut : cut.WellFormed (s.next d))
    (htext : cut.text (s.next d) = feed own' ++ t)
    (htokens : cut.tokensFrom [] (s.next d) ((s.text d).reverse ++
      ((margin own' token).reverse ++ (content.reverse ++ (feed own ++ before)))) own' = later) :
    (Cut.tag (feed own ++ (content ++ margin own' token)) s cut).tokensFrom [] d before own =
      Cut.textTokens content ++ token :: later := by
  have halone := h.standsAlone_iff hd hcut htext htokens
  have hshared : own' = false → margin own' token = [] := by
    rintro rfl
    rfl
  simp only [Cut.tokensFrom, reverse_gap, h.read, List.append_nil, halone, Bool.decide_eq_true,
    kept_written h.indent hshared h.endsLine, htokens]

lemma TagWritten.tagsFrom_tag
    (h : TagWritten d (feed own ++ before) content s token own' later)
    (halone : StandsAlone token ((margin own' token).reverse ++
      (content.reverse ++ (feed own ++ before))) (cut.text (s.next d)) ↔ own' = true) :
    (Cut.tag (feed own ++ (content ++ margin own' token)) s cut).tagsFrom d before =
      (Position.start.after
          ((margin own' token).reverse ++ (content.reverse ++ (feed own ++ before))).reverse,
        token.kind, own') ::
        cut.tagsFrom (s.next d) ((s.text d).reverse ++
          ((margin own' token).reverse ++ (content.reverse ++ (feed own ++ before)))) := by
  simp only [Cut.tagsFrom_tag, reverse_gap, h.read, halone, Bool.decide_eq_true]

end Tag

/-- A tag of the same kind, which stands alone if the other one does. -/
def KeepsLine (old new : Kind × Bool) : Prop := new.1 = old.1 ∧ (old.2 = true → new.2 = true)

/-- A cut of what is written for tokens behind `before` and the line feed of a tag: it has the
tokens, its tags stand where they were placed, and those stand alone that did. -/
structure Written (d : Delimiters) (before : Text) (own : Bool) (tokens : List Token)
    (tags : List (Kind × Bool)) (cut : Cut) (t : Text) : Prop where
  wellFormed : cut.WellFormed d
  text : cut.text d = feed own ++ t
  write : writeFrom d (feed own ++ before) tokens (plan tokens) = (feed own ++ before).reverse ++ t
  read : cut.tokensFrom [] d before own = tokens
  placed : cut.tagsFrom d before =
    (placements d (feed own ++ before) tokens).filterMap Placement.tag?
  alone : List.Forall₂ KeepsLine tags ((cut.tagsFrom d before).map Prod.snd)

/-- The text that is written for the tokens of a template can be cut into a template with the same
tokens. The induction goes along the tags, and what is carried from tag to tag is that the writing
may stand for what was there in the template. -/
theorem exists_written_of_lexedAs {x : Text} {tokens : List Token} {tags : List (Kind × Bool)}
    (h : LexedAs d x tokens tags) (hd : d.Valid) (hfit : DirectivesFit d tokens) {before : Text}
    {own : Bool} (hw : Replaces (feed own ++ before) x tokens) :
    ∃ (cut : Cut) (t : Text), Written d before own tokens tags cut t := by
  induction h generalizing before own with
  | @last d x gap hgap =>
    refine ⟨.last (feed own ++ gap), gap, ?_, rfl, ?_, ?_, ?_, .nil⟩
    · exact not_infix_feed hd.1 hgap own
    · rw [← List.append_nil (Cut.textTokens gap), writeFrom_textTokens, writeFrom,
        List.reverse_append, List.reverse_reverse]
    · rw [Cut.tokensFrom, kept_feed]
    · rw [← List.append_nil (Cut.textTokens gap), tags_placements_textTokens]
      rfl
  | @tag d x gap s alone later tags htag hlater ih =>
    generalize hown : ownsLine (s.token (gap.reverse ++ x))
      ((Cut.kept false alone gap).reverse ++ (feed own ++ before)) later (firstStart later) = own'
    have halone : alone = true → own' = true := by
      rintro rfl
      rw [← hown]
      exact ownsLine_of_alone htag ⟨_, hlater⟩ hw
    have hstart : alone = false → own' = true → firstStart later ≠ .forbidden := by
      rintro rfl h
      exact firstStart_ne_forbidden_of_ownsLine hw (hown.trans h)
    have hfitTag := hfit.of_append
    rw [pairAfter_textTokens] at hfitTag
    obtain ⟨s', hs', hsame, hspell⟩ :=
      htag.spelling.hasCanonical hd (DirectivesFit.cons_iff.1 hfitTag).1
    have hwritten := tagWritten_of_tagLexed hd htag hsame hw halone hown
    have hnext : s'.next d = s.next d := by
      rw [← hs'.delimitersAfter_token [], hsame, htag.spelling.delimitersAfter_token]
    have hspell := hspell (gap.reverse ++ x)
    have htoken := htag.spelling.isText_token (gap.reverse ++ x)
    have hpair := htag.spelling.delimitersAfter_token (gap.reverse ++ x)
    generalize s.token (gap.reverse ++ x) = token at hwritten hown hspell htoken hpair hfitTag ⊢
    generalize Cut.kept false alone gap = content at hwritten hown ⊢
    have hfitLater : DirectivesFit (s.next d) later := by
      rw [← hpair]
      exact (DirectivesFit.cons_iff.1 hfitTag).2
    obtain ⟨cut, t, hcut, htext, hwrite, htokens, hplaced, hkeeps⟩ :=
      ih (htag.spelling.valid_next hd) hfitLater (replaces_of_tag hd s s' halone hstart
        ((margin own' token).reverse ++ (content.reverse ++ (feed own ++ before))))
    rw [← hnext] at hcut htext htokens hkeeps
    have hline := hwritten.standsAlone_iff (hs'.valid_next hd) hcut htext htokens
    refine ⟨.tag (feed own ++ (content ++ margin own' token)) s' cut,
      content ++ margin own' token ++ s'.text d ++ feed own' ++ t,
      ⟨firstAfter_feed hd.1 hwritten.first own, hs', hcut⟩, ?_, ?_, ?_, ?_, ?_⟩
    · rw [Cut.text, htext]
      simp only [List.append_assoc]
    · rw [writeFrom_textTokens, writeFrom_tag hown, hpair, ← hspell, hwrite]
      simp [reverse_feed]
    · exact hwritten.tokensFrom_tag (hs'.valid_next hd) hcut htext htokens
    · rw [hwritten.tagsFrom_tag hline, tags_placements_textTokens, tags_placements_tag htoken hown,
        hpair, ← hspell, hnext, hplaced]
    · rw [hwritten.tagsFrom_tag hline]
      exact .cons ⟨rfl, halone⟩ hkeeps

lemma exists_cut_of_lexed {x : Text} {tokens : List Token} (h : Lexed d x tokens)
    (hd : d.Valid) (hfit : DirectivesFit d tokens) {before : Text} {own : Bool}
    (hw : Replaces (feed own ++ before) x tokens) :
    ∃ (cut : Cut) (t : Text), cut.WellFormed d ∧ cut.text d = feed own ++ t ∧
      writeFrom d (feed own ++ before) tokens (plan tokens) = (feed own ++ before).reverse ++ t ∧
      cut.tokensFrom [] d before own = tokens := by
  obtain ⟨tags, h⟩ := h
  obtain ⟨cut, t, hcut⟩ := exists_written_of_lexedAs h hd hfit hw
  exact ⟨cut, t, hcut.wellFormed, hcut.text, hcut.write, hcut.read⟩

end Canonical

/-- Reading the canonical form of a template gives the tokens of the template, if every directive
can be written under the pair in effect before it. -/
theorem tokenize_write {d : Delimiters} (hd : d.Valid) {source : Text} {tokens : List Token}
    (h : tokenize d source = .ok tokens) (hfit : DirectivesFit d tokens) :
    tokenize d (Canonical.write d tokens) = .ok tokens := by
  obtain ⟨cut, hcut, -, rfl⟩ := exists_cut_of_tokenize_eq_ok hd h
  have hlexed : Lexed d [] (cut.tokens d) := Cut.lexed_tokensFrom hd hcut (by simp) rfl
  have hempty : Canonical.Replaces (Canonical.feed false ++ []) [] (cut.tokens d) :=
    .inl ⟨Text.breaks_nil, Text.breaks_nil⟩
  obtain ⟨cut', t, hcut', htext, hwrite, htokens⟩ :=
    Canonical.exists_cut_of_lexed hlexed hd hfit hempty
  have hsource : Canonical.write d (cut.tokens d) = cut'.text d := by
    rw [htext]
    exact hwrite
  rw [hsource, tokenize_of_cut hd hcut']
  exact congrArg Except.ok htokens

/-- An inclusion gets its indentation back on a line of its own, and a directive is written under
the pair before it. -/
theorem tokenize_write_inclusion :
    tokenize .braces (Canonical.write .braces [.inclusion ['p'] [' '],
        .setDelimiters ⟨['<', '%'], ['%', '>']⟩, .text [' '], .block .plain ['a']]) =
      .ok [.inclusion ['p'] [' '], .setDelimiters ⟨['<', '%'], ['%', '>']⟩, .text [' '],
        .block .plain ['a']] := by
  have hread : tokenize .braces " \x7b\x7b> p\x7d\x7d\n\x7b\x7b= <%  %> =\x7d\x7d <%# a%>".toList =
      .ok [.inclusion ['p'] [' '], .setDelimiters ⟨['<', '%'], ['%', '>']⟩, .text [' '],
        .block .plain ['a']] := by decide +kernel
  have hfit : DirectivesFit .braces [.inclusion ['p'] [' '],
      .setDelimiters ⟨['<', '%'], ['%', '>']⟩, .text [' '], .block .plain ['a']] := by
    simp only [DirectivesFit.cons_iff, DirectivesFit.nil, Token.setDelimiters.injEq,
      reduceCtorEq, false_implies, implies_true, forall_eq', true_and, and_true]
    decide
  exact tokenize_write Delimiters.valid_braces hread hfit

end Mustache
