import Mustache.Proofs.CanonicalTag
import Mustache.Proofs.Lexed

/-! The shape of token lists. Whatever the delimiters, what the lexer keeps of a template can be
told apart again: texts hold no opening sequence, names no closing one, and no text runs on into
the next. -/
namespace Mustache

/-- A name without blanks at its ends and without the closing sequence. -/
def NameFits (d : Delimiters) (name : Text) : Prop :=
  Text.trim name = name ∧ ¬ d.closing <:+: name

namespace Token

/-- What a token may hold under the pair in effect before it. The name of an escaped value is
searched for the closing sequence from its second character on, since the first one is the
sigil. -/
def Fits (d : Delimiters) : Token → Prop
  | .text content => content ≠ [] ∧ ¬ d.opening <:+: content
  | .escaped name => Text.trim name = name ∧ ∃ c tail, name = c :: tail ∧ isBlank c = false ∧
      c ∉ Tag.signs ∧ ¬ d.closing <:+: tail
  | .unescaped name => NameFits d name
  | .comment => True
  | .inclusion name indentation => NameFits d name ∧ ∀ c ∈ indentation, isIndent c = true
  | .block _ name => NameFits d name
  | .setDelimiters pair => pair.Valid ∧ '=' ∉ pair.closing ∧ ¬ d.closing <:+: pair.opening

/-- Text is followed by a tag, whose opening sequence does not begin within the text. -/
def Meets (d : Delimiters) : Token → Token → Prop
  | .text content, next => next.isText = false ∧ FirstAfter d.opening content
  | _, _ => True

lemma meets_of_not_text {token : Token} (h : token.isText = false) (d : Delimiters)
    (next : Token) : token.Meets d next := by
  cases token with
  | text content => cases h
  | _ => exact trivial

end Token

/-- Every token holds what it may hold, and meets the one behind it, under the pair in effect. -/
def Shaped : Delimiters → List Token → Prop
  | _, [] => True
  | d, token :: later =>
    token.Fits d ∧ (∀ next ∈ later.head?, token.Meets d next) ∧
      Shaped (token.delimitersAfter d) later

lemma shaped_textTokens {d : Delimiters} {t : Text} (ht : ¬ d.opening <:+: t) :
    Shaped d (Cut.textTokens t) := by
  by_cases hnil : t = []
  · rw [hnil]
    trivial
  · rw [Cut.textTokens_of_ne_nil hnil]
    exact ⟨⟨hnil, ht⟩, by simp, trivial⟩

lemma shaped_textTokens_append {d : Delimiters} {t : Text} {token : Token} {later : List Token}
    (hopen : d.opening ≠ []) (ht : FirstAfter d.opening t) (htoken : token.isText = false)
    (hfits : token.Fits d) (hlater : Shaped (token.delimitersAfter d) later) :
    Shaped d (Cut.textTokens t ++ token :: later) := by
  have htag : Shaped d (token :: later) :=
    ⟨hfits, fun next _ => Token.meets_of_not_text htoken d next, hlater⟩
  by_cases hnil : t = []
  · rw [hnil]
    exact htag
  · rw [Cut.textTokens_of_ne_nil hnil]
    refine ⟨⟨hnil, ht.not_infix hopen⟩, ?_, htag⟩
    intro next hnext
    cases hnext
    exact ⟨htoken, ht⟩

lemma Delimiters.opening_infix_of_ofDirective? {content : Text} {pair : Delimiters}
    (h : ofDirective? content = some pair) : pair.opening <:+: content := by
  simp only [ofDirective?] at h
  split at h
  · obtain ⟨rfl, -⟩ := ofPair?_eq_some_iff.1 h
    exact (List.takeWhile_prefix _).isInfix.trans (List.dropWhile_suffix _).isInfix
  · cases h

namespace Spelling

variable {d : Delimiters} {s : Spelling}

lemma WellFormed.nameFits (hs : s.WellFormed d) (hd : d.Valid) :
    NameFits d (Text.trim s.tag.content) := by
  refine ⟨Text.trim_trim _, fun h => ?_⟩
  exact hs.content.not_infix (ne_nil_of_isMark hd.2) (h.trans (Text.trim_infix _))

lemma WellFormed.fits_directive (hs : s.WellFormed d) (hd : d.Valid) (hsign : s.tag.sigil = '=')
    (before : Text) : (s.token before).Fits d := by
  obtain ⟨pair, hpair⟩ := Option.isSome_iff_exists.1 (hs.directive hsign)
  have htoken : s.token before = .setDelimiters pair := by
    rw [token_eq, Tag.token?_of_eq hsign, hpair]
    rfl
  rw [htoken]
  refine ⟨Delimiters.valid_of_ofDirective? hpair, Delimiters.notMem_closing_of_ofDirective? hpair,
    fun h => ?_⟩
  exact hs.content.not_infix (ne_nil_of_isMark hd.2)
    (h.trans (Delimiters.opening_infix_of_ofDirective? hpair))

lemma WellFormed.fits_escaped (hs : s.WellFormed d) (hd : d.Valid)
    (hsign : s.tag.sigil ∉ Tag.signs) (before : Text) : (s.token before).Fits d := by
  have htoken : s.token before = .escaped (Text.trim (s.tag.sigil :: s.tag.content)) := by
    rw [token_eq, Tag.token?_of_notMem hsign]
    rfl
  rw [htoken]
  refine ⟨Text.trim_trim _, s.tag.sigil, _, Text.trim_cons hs.sigil _, hs.sigil, hsign, fun h => ?_⟩
  exact hs.content.not_infix (ne_nil_of_isMark hd.2)
    (h.trans (List.rdropWhile_prefix isBlank _).isInfix)

lemma WellFormed.fits_inclusion (hs : s.WellFormed d) (hd : d.Valid) (hsign : s.tag.sigil = '>')
    (before : Text) : (s.token before).Fits d := by
  have htoken : s.token before =
      .inclusion (Text.trim s.tag.content) ((Text.lineIndent? before).getD []) := by
    simp [token_eq, Tag.token?, hsign]
  rw [htoken]
  refine ⟨hs.nameFits hd, ?_⟩
  cases hlook : Text.lineIndent? before with
  | none => simp
  | some indent => exact Text.isIndent_of_lineIndent?_eq_some hlook

/-- The token of a tag that is read as it is spelled fits the pair under which it is read. -/
lemma WellFormed.fits_token (hs : s.WellFormed d) (hd : d.Valid) (before : Text) :
    (s.token before).Fits d := by
  by_cases hdirective : s.tag.sigil = '='
  · exact hs.fits_directive hd hdirective before
  by_cases hinclusion : s.tag.sigil = '>'
  · exact hs.fits_inclusion hd hinclusion before
  by_cases hsign : s.tag.sigil ∈ Tag.signs
  · have hname := hs.nameFits hd
    simp only [Tag.signs, List.mem_cons, List.not_mem_nil, or_false, hdirective, hinclusion,
      false_or] at hsign
    rcases hsign with h | h | h | h | h | h | h | h
    all_goals simp [token_eq, Tag.token?, h, Token.Fits, hname]
  · exact hs.fits_escaped hd hsign before

end Spelling

/-- What is kept of a gap in front of a tag still comes to its end before the opening sequence
begins: a tag that stands alone leaves a text that ends a line. -/
lemma TagLexed.firstAfter_kept {d : Delimiters} {before gap : Text} {s : Spelling} {alone : Bool}
    {later : List Token} (h : TagLexed d before gap s alone later) (hd : d.Valid) :
    FirstAfter d.opening (Cut.kept false alone gap) := by
  cases alone with
  | false => exact h.first
  | true =>
    have hno : ¬ d.opening <:+: Cut.kept false true gap := by
      obtain ⟨w, hgap, -⟩ := Cut.exists_kept_append true gap
      intro hin
      apply h.first.not_infix (ne_nil_of_isMark hd.1)
      rw [hgap]
      exact hin.trans (List.prefix_append _ _).isInfix
    rcases Text.endsLine_dropEndWhile (h.atStart rfl).2 with hnil | ⟨u, hu⟩
    · rw [show Cut.kept false true gap = [] from hnil]
      exact firstAfter_nil _
    · rw [show Cut.kept false true gap = u ++ ['\n'] from hu] at hno ⊢
      apply firstAfter_append_blanks hd.1 _ (by simp) (by simp [isBlank])
      exact fun hin => hno (hin.trans (List.prefix_append _ _).isInfix)

lemma Lexed.shaped {d : Delimiters} {before : Text} {tokens : List Token}
    (h : Lexed d before tokens) (hd : d.Valid) : Shaped d tokens := by
  obtain ⟨tags, h⟩ := h
  induction h with
  | last hgap => exact shaped_textTokens hgap
  | @tag d before gap s alone later _ htag _ ih =>
    have hs := htag.spelling
    refine shaped_textTokens_append (ne_nil_of_isMark hd.1) (htag.firstAfter_kept hd)
      (hs.isText_token _) (hs.fits_token hd _) ?_
    rw [hs.delimitersAfter_token]
    exact ih (hs.valid_next hd)

/-- The tokens of a template have their shape under the pairs in effect. -/
theorem shaped_of_tokenize_eq_ok {d : Delimiters} (hd : d.Valid) {source : Text}
    {tokens : List Token} (h : tokenize d source = .ok tokens) : Shaped d tokens := by
  obtain ⟨cut, hcut, -, rfl⟩ := exists_cut_of_tokenize_eq_ok hd h
  have hlexed : Lexed d [] (cut.tokens d) := Cut.lexed_tokensFrom hd hcut (by simp) rfl
  exact hlexed.shaped hd

/-- A text that a block on its own line has shortened, and a value whose name begins with the
closing sequence. -/
theorem shaped_of_tokenize_sigil :
    tokenize ⟨['<', '<'], ['%']⟩ "x\n <<# s%\n<<%y %z".toList =
        .ok [.text ['x', '\n'], .block .plain ['s'], .escaped ['%', 'y'], .text ['z']] ∧
      Shaped ⟨['<', '<'], ['%']⟩
        [.text ['x', '\n'], .block .plain ['s'], .escaped ['%', 'y'], .text ['z']] := by
  have hread : tokenize ⟨['<', '<'], ['%']⟩ "x\n <<# s%\n<<%y %z".toList =
      .ok [.text ['x', '\n'], .block .plain ['s'], .escaped ['%', 'y'], .text ['z']] := by
    decide +kernel
  exact ⟨hread, shaped_of_tokenize_eq_ok (by decide) hread⟩

end Mustache
