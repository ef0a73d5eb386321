import Mustache.Layout
import Mustache.Proofs.Grammar

/-! The token lists that templates have. Tokens do not record which line ends and indentation the
lexer has taken away; what they still say about the lines of the template is collected here. -/
namespace Mustache

namespace Layout

/-- What the tokens say about a line start in front of them. -/
def firstStart (tokens : List Token) : LineStart := (plan tokens).headD .either

@[simp] lemma firstStart_nil : firstStart [] = .either := rfl

@[simp] lemma firstStart_cons (token : Token) (later : List Token) :
    firstStart (token :: later) = lineStart token later (firstStart later) := by
  rw [firstStart, plan_cons]
  rfl

lemma lineStart_tag_ne_forbidden {token : Token} (htoken : token.isText = false)
    (later : List Token) (next : LineStart) : lineStart token later next ≠ .forbidden := by
  cases token with
  | text content => cases htoken
  | inclusion name indentation =>
    cases indentation with
    | nil => simp only [lineStart, atTag]; split <;> simp
    | cons c t => simp [lineStart, atTag]
  | _ => simp only [lineStart, atTag]; split <;> simp

/-- Indentation must not follow a line start if the tag behind it would take it away or get it. -/
lemma lineStart_text_eq_forbidden_iff {gap : Text} {tag : Token} {later : List Token}
    {next : LineStart} :
    lineStart (.text gap) (tag :: later) next = .forbidden ↔
      Text.isIndentation gap = true ∧ ((∃ name, tag = .inclusion name []) ∨
        (∀ name i, tag ≠ .inclusion name i) ∧ tag.canStandAlone = true ∧
          lineEnds later = true) := by
  by_cases hgap : Text.isIndentation gap = true
  · cases tag with
    | inclusion name indentation =>
      cases indentation with
      | nil => simp [lineStart, hgap, atIndented]
      | cons c t => simp [lineStart, hgap, atIndented]; split <;> simp
    | _ => simp [lineStart, hgap, atIndented]
  · simp [lineStart, hgap]

/-- Where a line ends anyway, nothing is said about a line start. -/
lemma firstStart_eq_either_of_lineEnds {later : List Token} (h : lineEnds later = true) :
    firstStart later = .either := by
  cases later with
  | nil => rfl
  | cons token rest =>
    cases token with
    | text content =>
      rw [firstStart_cons, lineStart]
      split
      next hindent =>
        have hblank : content.dropWhile isLineBlank = [] := by
          rw [List.dropWhile_eq_nil_iff]
          intro c hc
          have hall := (Bool.and_eq_true_iff.1 hindent).2
          exact Text.isLineBlank_of_isIndent (List.all_eq_true.1 hall c hc)
        rw [lineEnds, hblank] at h
        rw [List.isEmpty_iff.1 h]
        rfl
      next => rfl
    | _ => cases h

lemma firstStart_ne_forbidden_of_lineEnds {later : List Token}
    (h : lineEnds later = true) : firstStart later ≠ .forbidden := by
  simp [firstStart_eq_either_of_lineEnds h]

lemma lineEnds_textTokens (gap : Text) :
    lineEnds (Cut.textTokens gap) = true ↔ Text.AtLineEnd gap := by
  rw [Text.atLineEnd_iff_breaks]
  by_cases hgap : gap = []
  · simp [hgap, Cut.textTokens, lineEnds]
  · rw [Cut.textTokens_of_ne_nil hgap, lineEnds]
    cases gap.dropWhile isLineBlank <;> simp

/-- A tag behind a gap is seen by looking for the end of the line, as its first character is. -/
lemma lineEnds_textTokens_append {token : Token} (htoken : token.isText = false) (gap : Text)
    (later : List Token) {c : Char} (hc : isBlank c = false) (y : Text) :
    lineEnds (Cut.textTokens gap ++ token :: later) = true ↔ Text.AtLineEnd (gap ++ c :: y) := by
  rw [Text.atLineEnd_iff_breaks]
  by_cases hgap : gap = []
  · cases token with
    | text content => cases htoken
    | _ =>
      simp [hgap, Cut.textTokens, lineEnds, Text.isLineBlank_eq_false_of_not_blank hc,
        Text.ne_lineFeed_of_not_blank hc]
  · rw [Cut.textTokens_of_ne_nil hgap, List.singleton_append, lineEnds, List.dropWhile_append]
    cases gap.dropWhile isLineBlank with
    | nil =>
      simp [Text.isLineBlank_eq_false_of_not_blank hc, Text.ne_lineFeed_of_not_blank hc]
    | cons a t => simp

end Layout

namespace Cut

variable {d : Delimiters}

@[simp] lemma kept_false_false (gap : Text) : kept false false gap = gap := rfl

lemma kept_suffix (alone : Bool) (gap : Text) : kept alone false gap <:+ gap := by
  cases alone
  · exact List.suffix_rfl
  · exact Text.afterLine_suffix gap

lemma exists_kept_append (alone : Bool) (gap : Text) :
    ∃ w, gap = kept false alone gap ++ w ∧ ∀ c ∈ w, isIndent c = true := by
  cases alone
  · exact ⟨[], by simp [kept], by simp⟩
  · exact Text.exists_dropEndWhile_append isIndent gap

/-- Tokens end a line right away exactly if their template does. -/
lemma lineEnds_tokensFrom {cut : Cut} (hd : d.Valid) (hcut : cut.WellFormed d) (before : Text) :
    Layout.lineEnds (cut.tokensFrom [] d before false) = true ↔ Text.AtLineEnd (cut.text d) := by
  cases cut with
  | last gap => exact Layout.lineEnds_textTokens gap
  | tag gap s later =>
    obtain ⟨c, t, htext, hc⟩ := s.exists_cons_text hd
    simp only [tokensFrom, List.append_nil]
    generalize decide (StandsAlone (s.token (gap.reverse ++ before)) (gap.reverse ++ before)
      (later.text (s.next d))) = alone
    obtain ⟨w, hgap, hw⟩ := exists_kept_append alone gap
    rw [Layout.lineEnds_textTokens_append (hcut.2.1.isText_token _) _ _ hc t, text, htext]
    conv_rhs => rw [hgap, List.append_assoc, List.cons_append]
    exact (Text.atLineEnd_append_blanks_iff hc hc
      fun a ha => Text.isLineBlank_of_isIndent (hw a ha)).symm

end Cut

/-- A tag with the gap before it and the tokens behind it, where `before` precedes the gap on its
line, newest first. A tag that could have stood alone but did not was followed by something on its
line. -/
structure TagLexed (d : Delimiters) (before gap : Text) (s : Spelling) (alone : Bool)
    (later : List Token) : Prop where
  first : FirstAfter d.opening gap
  spelling : s.WellFormed d
  atStart : alone = true → (s.token (gap.reverse ++ before)).canStandAlone = true ∧
    Text.AtLineStart (gap.reverse ++ before)
  shared : alone = false → (s.token (gap.reverse ++ before)).canStandAlone = true →
    Text.AtLineStart (gap.reverse ++ before) → Layout.lineEnds later = false

/-- Tokens that a part of a template can have, where `before` precedes the part on its line,
newest first, with the kinds of the tags and whether each stood alone on its line. One that did is
followed by a fresh line. -/
inductive LexedAs : Delimiters → Text → List Token → List (Kind × Bool) → Prop
  | last {d : Delimiters} {before gap : Text} (hgap : ¬ d.opening <:+: gap) :
    LexedAs d before (Cut.textTokens gap) []
  | tag {d : Delimiters} {before gap : Text} {s : Spelling} {alone : Bool} {later : List Token}
    {tags : List (Kind × Bool)} (htag : TagLexed d before gap s alone later)
    (hlater : LexedAs (s.next d) (if alone then [] else (s.text d).reverse) later tags) :
    LexedAs d before (Cut.textTokens (Cut.kept false alone gap) ++
      s.token (gap.reverse ++ before) :: later)
      (((s.token (gap.reverse ++ before)).kind, alone) :: tags)

/-- Tokens that a part of a template can have, whichever of its tags stood alone. -/
def Lexed (d : Delimiters) (before : Text) (tokens : List Token) : Prop :=
  ∃ tags, LexedAs d before tokens tags

/-- What a log says of a tag: where it begins, its kind, and whether it stands alone. -/
def Record.tag? : Record → Option (Position × Kind × Bool)
  | .tag place kind alone => some (place, kind, alone)
  | _ => none

@[simp] lemma Record.filterMap_tag?_ofTag (place : Position) (d : Delimiters) (token : Token)
    (alone : Bool) : (ofTag place d token alone).filterMap tag? = [(place, token.kind, alone)] := by
  cases token <;> rfl

namespace Cut

variable {d : Delimiters}

/-- What is kept of a gap looks back at the same line as the gap does. -/
lemma lineIndent?_kept {gap after before x : Text} {c : Char} {alone : Bool}
    (hc : isBlank c = false) (halone : alone = true → Text.AtLineEnd (gap ++ c :: after))
    (hx : Text.lineIndent? x = if alone then some [] else Text.lineIndent? before) :
    Text.lineIndent? ((kept alone false gap).reverse ++ x) =
      Text.lineIndent? (gap.reverse ++ before) := by
  cases alone with
  | false => exact Text.lineIndent?_append_congr hx gap.reverse
  | true =>
    obtain ⟨w, t, rfl, hw⟩ := (Text.atLineEnd_append_cons_iff hc).1 (halone rfl)
    have hfeed : '\n' ∉ w := Text.not_lineFeed_mem Text.isLineBlank_lineFeed hw
    have hkept : kept true false (w ++ '\n' :: t) = t := Text.afterLine_append_lineFeed hfeed t
    rw [hkept, Text.lineIndent?_append_congr (y := []) hx, List.append_nil, List.reverse_append,
      List.reverse_cons, List.append_assoc, List.append_assoc, List.singleton_append,
      Text.lineIndent?_append_lineFeed]

/-- The tags of a part of a template, as the log of a run over it tells them. -/
def tagsFrom (d : Delimiters) (before : Text) (cut : Cut) : List (Position × Kind × Bool) :=
  (cut.recordsFrom [] d before).filterMap Record.tag?

lemma tagsFrom_tag (d : Delimiters) (before gap : Text) (s : Spelling) (later : Cut) :
    (tag gap s later).tagsFrom d before =
      (Position.start.after (gap.reverse ++ before).reverse, (s.token (gap.reverse ++ before)).kind,
        decide (StandsAlone (s.token (gap.reverse ++ before)) (gap.reverse ++ before)
          (later.text (s.next d)))) ::
        later.tagsFrom (s.next d) ((s.text d).reverse ++ (gap.reverse ++ before)) := by
  simp only [tagsFrom, recordsFrom, List.filterMap_append, Record.filterMap_tag?_ofTag,
    List.append_nil, List.singleton_append]

/-- The tokens of a cut. A tag right before it that stands alone has taken a line away, and `x`
stands for what then precedes it. -/
lemma lexedAs_tokensFrom {cut : Cut} (hd : d.Valid) (hcut : cut.WellFormed d) {before x : Text}
    {alone : Bool} (halone : alone = true → Text.AtLineEnd (cut.text d))
    (hx : Text.lineIndent? x = if alone then some [] else Text.lineIndent? before) :
    LexedAs d x (cut.tokensFrom [] d before alone)
      ((cut.tagsFrom d before).map Prod.snd) := by
  induction cut generalizing d before x alone with
  | last gap =>
    exact .last fun h => hcut (h.trans (kept_suffix alone gap).isInfix)
  | tag gap s later ih =>
    obtain ⟨hgap, hs, hlater⟩ := hcut
    have hlook : Text.lineIndent? ((kept alone false gap).reverse ++ x) =
        Text.lineIndent? (gap.reverse ++ before) := by
      obtain ⟨c, t, htext, hc⟩ := s.exists_cons_text hd
      have hend : alone = true → Text.AtLineEnd (gap ++ c :: (t ++ later.text (s.next d))) := by
        intro h
        simpa [text, htext] using halone h
      exact lineIndent?_kept hc hend hx
    have hkept : FirstAfter d.opening (kept alone false gap) := by
      obtain ⟨u, hu⟩ := kept_suffix alone gap
      rw [← hu] at hgap
      exact hgap.of_append
    simp only [tokensFrom, tagsFrom_tag, List.map_cons, List.append_nil]
    generalize gap.reverse ++ before = start at hlook ⊢
    generalize halone' : decide (StandsAlone (s.token start) start (later.text (s.next d))) = alone'
    have htwice : kept alone alone' gap = kept false alone' (kept alone false gap) := by
      cases alone <;> rfl
    rw [htwice, ← s.token_congr hlook]
    simp only [← s.token_congr hlook, ← standsAlone_congr _ hlook] at halone'
    refine .tag ⟨hkept, hs, ?_, ?_⟩ (ih (hs.valid_next hd) hlater ?_ ?_)
    · intro h
      rw [h, decide_eq_true_iff] at halone'
      exact ⟨Token.writesNothing_iff.1 halone'.1, halone'.2.1⟩
    · intro h hkind hline
      rw [h, decide_eq_false_iff_not] at halone'
      rw [h, Bool.eq_false_iff, ne_eq, lineEnds_tokensFrom (hs.valid_next hd) hlater]
      exact fun hend => halone' ⟨Token.writesNothing_iff.2 hkind, hline, hend⟩
    · intro h
      rw [h, decide_eq_true_iff] at halone'
      exact halone'.2.2
    · cases alone' with
      | true => rfl
      | false =>
        have hnone := s.lineIndent?_text hd []
        rw [List.append_nil] at hnone
        exact hnone.trans (s.lineIndent?_text hd start).symm

lemma lexed_tokensFrom {cut : Cut} (hd : d.Valid) (hcut : cut.WellFormed d) {before x : Text}
    {alone : Bool} (halone : alone = true → Text.AtLineEnd (cut.text d))
    (hx : Text.lineIndent? x = if alone then some [] else Text.lineIndent? before) :
    Lexed d x (cut.tokensFrom [] d before alone) :=
  ⟨_, lexedAs_tokensFrom hd hcut halone hx⟩

end Cut

namespace Lexed

open Layout

/-- At a line start, the tokens of a template never say that none may be there. -/
lemma firstStart_ne_forbidden {d : Delimiters} {tokens : List Token} (h : Lexed d [] tokens) :
    firstStart tokens ≠ .forbidden := by
  obtain ⟨tags, h⟩ := h
  cases h with
  | @last _ _ gap hgap =>
    by_cases hne : gap = []
    · simp [hne, Cut.textTokens_nil]
    · rw [Cut.textTokens_of_ne_nil hne, firstStart_cons, lineStart]
      split <;> simp [atIndented]
  | @tag _ _ gap s alone later _ htag hlater =>
    by_cases hne : Cut.kept false alone gap = []
    · rw [hne, Cut.textTokens_nil, List.nil_append, firstStart_cons]
      exact lineStart_tag_ne_forbidden (htag.spelling.isText_token _) _ _
    rw [Cut.textTokens_of_ne_nil hne, List.singleton_append, firstStart_cons, ne_eq,
      lineStart_text_eq_forbidden_iff]
    rintro ⟨hindent, hforbidden⟩
    have hall : ∀ c ∈ Cut.kept false alone gap, isIndent c = true := by
      simpa [Text.isIndentation] using (Bool.and_eq_true_iff.1 hindent).2
    cases alone with
    | true =>
      -- A tag that stood alone has left no indentation behind.
      rcases Text.dropEndWhile_eq_nil_or_concat isIndent gap with hnil | ⟨u, c, hcons, hc⟩
      · exact hne hnil
      · rw [hall c (show c ∈ Text.dropEndWhile isIndent gap by simp [hcons])] at hc
        cases hc
    | false =>
      have hlook : Text.lineIndent? (gap.reverse ++ []) = some gap :=
        Text.lineIndent?_reverse_append hall []
      rcases hforbidden with ⟨name, hname⟩ | ⟨-, hkind, hends⟩
      · have hempty := Spelling.indentation_of_inclusion hname
        rw [hlook] at hempty
        exact hne hempty.symm
      · have hline : Text.AtLineStart (gap.reverse ++ []) :=
          Text.isSome_lineIndent?_iff.1 (by rw [hlook]; rfl)
        rw [htag.shared rfl hkind hline] at hends
        cases hends

end Lexed

end Mustache
