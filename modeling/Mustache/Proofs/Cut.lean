import Mustache.Proofs.LinePlace
import Mustache.Proofs.Occurrence
import Mustache.Tag

/-! Templates cut into gaps and tags. A cut says where the tags of a template are and how each
is spelled; the text of the template, the pairs in effect and the tokens are read off it. What
is kept of a gap depends on which of its neighbours stand alone on their lines. -/
namespace Mustache

/-- A tag as it is spelled: the blanks behind its opening sequence, its sigil and its content. -/
structure Spelling where
  padding : Text
  tag : Tag
  deriving DecidableEq, Repr

namespace Spelling

/-- The brace behind the closing sequence of a tag that began with an additional brace. -/
def brace (s : Spelling) : Text := if s.tag.sigil = '\x7b' then ['\x7d'] else []

/-- The tag as it stands in a template. -/
def text (d : Delimiters) (s : Spelling) : Text :=
  d.opening ++ s.padding ++ s.tag.sigil :: s.tag.content ++ d.closing ++ s.brace

/-- The pair in effect behind the tag: a directive's own pair, else the pair before it. -/
def next (d : Delimiters) (s : Spelling) : Delimiters :=
  if s.tag.sigil = '=' then (Delimiters.ofDirective? s.tag.content).getD d else d

/-- What precedes a tag on its line, if that is nothing but indentation. `before` is what precedes
the tag in the template, newest first. -/
def indentation (before : Text) : Text :=
  if Text.AtLineStart before then (before.takeWhile (· != '\n')).reverse else []

/-- The token of the tag, by its sigil. Any character that is no sign of its own is part of the
name of an escaped value. -/
def token (s : Spelling) (before : Text) : Token :=
  let name := Text.trim s.tag.content
  if s.tag.sigil = '!' then .comment
  else if s.tag.sigil = '#' then .block .plain name
  else if s.tag.sigil = '^' then .block .inverted name
  else if s.tag.sigil = '$' then .block .override name
  else if s.tag.sigil = '<' then .block .parent name
  else if s.tag.sigil = '/' then .block .closing name
  else if s.tag.sigil = '>' then .inclusion name (indentation before)
  else if s.tag.sigil = '\x7b' ∨ s.tag.sigil = '&' then .unescaped name
  else if s.tag.sigil = '=' then
    -- Only what a directive gives is a token; without one the spelling is not well formed.
    ((Delimiters.ofDirective? s.tag.content).map .setDelimiters).getD .comment
  else .escaped (Text.trim (s.tag.sigil :: s.tag.content))

/-- A tag that is read under a pair as it is spelled. -/
structure WellFormed (d : Delimiters) (s : Spelling) : Prop where
  padding : ∀ c ∈ s.padding, isBlank c = true
  sigil : isBlank s.tag.sigil = false
  content : FirstAfter d.closing s.tag.content
  directive : s.tag.sigil = '=' → (Delimiters.ofDirective? s.tag.content).isSome

instance (d : Delimiters) (s : Spelling) : Decidable (s.WellFormed d) :=
  decidable_of_iff (s.padding.all isBlank = true ∧ isBlank s.tag.sigil = false ∧
      FirstAfter d.closing s.tag.content ∧
      (s.tag.sigil = '=' → (Delimiters.ofDirective? s.tag.content).isSome))
    ⟨fun h => ⟨List.all_eq_true.1 h.1, h.2.1, h.2.2.1, h.2.2.2⟩,
      fun h => ⟨List.all_eq_true.2 h.1, h.2, h.3, h.4⟩⟩

end Spelling

/-- A tag that writes nothing in its own place: any but a value. -/
def Token.WritesNothing : Token → Prop
  | .text _ | .escaped _ | .unescaped _ => False
  | .comment | .inclusion _ _ | .block _ _ | .setDelimiters _ => True

lemma Token.writesNothing_iff {token : Token} :
    token.WritesNothing ↔ token.canStandAlone = true := by
  cases token <;> simp [WritesNothing, canStandAlone, kind, Kind.canStandAlone]

instance (token : Token) : Decidable token.WritesNothing :=
  decidable_of_iff _ Token.writesNothing_iff.symm

/-- The tag writes nothing in its own place, and it is alone on its line. -/
def StandsAlone (token : Token) (before after : Text) : Prop :=
  token.WritesNothing ∧ Text.AtLineStart before ∧ Text.AtLineEnd after

instance (token : Token) (before after : Text) : Decidable (StandsAlone token before after) :=
  inferInstanceAs (Decidable (_ ∧ _ ∧ _))

lemma standsAlone_iff_canStandAlone {token : Token} {before after : Text} :
    StandsAlone token before after ↔
      token.canStandAlone = true ∧ Text.AtLineStart before ∧ Text.AtLineEnd after := by
  rw [StandsAlone, Token.writesNothing_iff]

/-- The pair in effect behind some tokens: that of the last change of delimiters among them, or
the pair before them if there is none. -/
def pairAfter (d : Delimiters) (tokens : List Token) : Delimiters :=
  tokens.foldl Token.delimitersAfter d

/-- A template as gaps of text with a tag between any two of them. -/
inductive Cut where
  | last (gap : Text)
  | tag (gap : Text) (spelling : Spelling) (later : Cut)
  deriving DecidableEq, Repr

namespace Cut

/-- The template that is cut. -/
def text (d : Delimiters) : Cut → Text
  | .last gap => gap
  | .tag gap s later => gap ++ s.text d ++ later.text (s.next d)

/-- The pair in effect at the end. -/
def delimiters (d : Delimiters) : Cut → Delimiters
  | .last _ => d
  | .tag _ s later => later.delimiters (s.next d)

/-- The gap at the end. -/
def lastGap : Cut → Text
  | .last gap => gap
  | .tag _ _ later => later.lastGap

/-- Every tag is read as it is spelled under the pair in effect, the opening sequence in effect
comes first behind the gap before a tag, and the last gap does not hold it. -/
def WellFormed (d : Delimiters) : Cut → Prop
  | .last gap => ¬ d.opening <:+: gap
  | .tag gap s later => FirstAfter d.opening gap ∧ s.WellFormed d ∧ later.WellFormed (s.next d)

instance decidableWellFormed : (d : Delimiters) → (cut : Cut) → Decidable (cut.WellFormed d)
  | d, .last gap => inferInstanceAs (Decidable (¬ d.opening <:+: gap))
  | d, .tag gap s later =>
    have := decidableWellFormed (s.next d) later
    inferInstanceAs (Decidable (FirstAfter d.opening gap ∧ s.WellFormed d ∧
      later.WellFormed (s.next d)))

/-- What is kept of a gap: a tag before it that stands alone takes the rest of its line away, and
a tag behind it that stands alone takes its indentation away. -/
def kept (aloneBefore aloneAfter : Bool) (gap : Text) : Text :=
  let tail := if aloneBefore then Text.afterLine gap else gap
  if aloneAfter then Text.dropEndWhile isIndent tail else tail

/-- A text as a token; an empty one is none. -/
def textTokens (t : Text) : List Token := if t.isEmpty then [] else [.text t]

/-- The tokens of a part of a template, where `before` precedes the part, newest first, and
`ending` follows it. The tag right before the part stands alone if `alone` says so. -/
def tokensFrom (ending : Text) (d : Delimiters) (before : Text) (alone : Bool) : Cut → List Token
  | .last gap => textTokens (kept alone false gap)
  | .tag gap s later =>
    let start := gap.reverse ++ before
    let after := later.text (s.next d) ++ ending
    let alone' := decide (StandsAlone (s.token start) start after)
    textTokens (kept alone alone' gap) ++ s.token start ::
      later.tokensFrom ending (s.next d) ((s.text d).reverse ++ start) alone'

/-- The tokens of a whole template. -/
def tokens (d : Delimiters) (cut : Cut) : List Token := cut.tokensFrom [] d [] false

end Cut

lemma pairAfter_textTokens (d : Delimiters) (t : Text) : pairAfter d (Cut.textTokens t) = d := by
  by_cases ht : t = [] <;> simp [pairAfter, Cut.textTokens, ht, Token.delimitersAfter]

lemma pairAfter_append (d : Delimiters) (earlier later : List Token) :
    pairAfter d (earlier ++ later) = pairAfter (pairAfter d earlier) later := List.foldl_append

/-! What the parts of a spelling say about the tag. -/

lemma Delimiters.valid_of_ofDirective? {content : Text} {d : Delimiters}
    (h : ofDirective? content = some d) : d.Valid := by
  simp only [ofDirective?] at h
  split at h
  · exact (ofPair?_eq_some_iff.1 h).2
  · cases h

namespace Tag

lemma token?_of_ne {tag : Tag} (h : tag.sigil ≠ '=') (indent : Option Text) :
    ∃ token, tag.token? indent = some token := by
  unfold token?
  split
  case h_10 heq => exact absurd heq h
  all_goals exact ⟨_, rfl⟩

lemma token?_of_eq {tag : Tag} (h : tag.sigil = '=') (indent : Option Text) :
    tag.token? indent = (Delimiters.ofDirective? tag.content).map .setDelimiters := by
  simp only [token?, h]

lemma isText_of_token? {tag : Tag} {indent : Option Text} {token : Token}
    (h : tag.token? indent = some token) : token.isText = false := by
  unfold token? at h
  split at h
  case h_10 =>
    obtain ⟨pair, _, rfl⟩ := Option.map_eq_some_iff.1 h
    rfl
  all_goals cases h; rfl

lemma delimitersAfter_of_token? {tag : Tag} {indent : Option Text} {token : Token}
    (h : tag.token? indent = some token) (hs : tag.sigil ≠ '=') (d : Delimiters) :
    token.delimitersAfter d = d := by
  unfold token? at h
  split at h
  case h_10 heq => exact absurd heq hs
  all_goals cases h; rfl

end Tag

namespace Spelling

variable {d : Delimiters} {s : Spelling}

lemma indentation_eq (before : Text) :
    indentation before = (Text.lineIndent? before).getD [] := by
  by_cases h : Text.AtLineStart before
  · rw [indentation, if_pos h]
    have hbreaks := Text.atLineStart_iff_breaks.1 h
    rw [Text.lineIndent?_of_breaks hbreaks, Option.getD_some, Text.takeWhile_of_atLineStart h]
  · rw [indentation, if_neg h, Text.lineIndent?_of_not_breaks (mt Text.atLineStart_iff_breaks.2 h),
      Option.getD_none]

/-- The token by the sigil is the one that the tag stands for where it stands. -/
lemma token_eq (s : Spelling) (before : Text) :
    s.token before = (s.tag.token? (Text.lineIndent? before)).getD .comment := by
  unfold Tag.token?
  split <;> simp_all [token, indentation_eq]

lemma WellFormed.token? (hs : s.WellFormed d) (before : Text) :
    s.tag.token? (Text.lineIndent? before) = some (s.token before) := by
  have hsome : ∃ token, s.tag.token? (Text.lineIndent? before) = some token := by
    by_cases h : s.tag.sigil = '='
    · obtain ⟨pair, hpair⟩ := Option.isSome_iff_exists.1 (hs.directive h)
      exact ⟨.setDelimiters pair, by rw [Tag.token?_of_eq h, hpair]; rfl⟩
    · exact Tag.token?_of_ne h _
  obtain ⟨token, htoken⟩ := hsome
  rw [token_eq, htoken]
  rfl

lemma WellFormed.isText_token (hs : s.WellFormed d) (before : Text) :
    (s.token before).isText = false := Tag.isText_of_token? (hs.token? before)

/-- The pair behind a tag can be read off its token as well. -/
lemma WellFormed.delimitersAfter_token (hs : s.WellFormed d) (before : Text) :
    (s.token before).delimitersAfter d = s.next d := by
  have htoken := hs.token? before
  by_cases h : s.tag.sigil = '='
  · obtain ⟨pair, hpair⟩ := Option.isSome_iff_exists.1 (hs.directive h)
    rw [Tag.token?_of_eq h, hpair, Option.map_some, Option.some.injEq] at htoken
    rw [← htoken, next, if_pos h, hpair]
    rfl
  · rw [Tag.delimitersAfter_of_token? htoken h, next, if_neg h]

lemma WellFormed.valid_next (hs : s.WellFormed d) (hd : d.Valid) : (s.next d).Valid := by
  by_cases h : s.tag.sigil = '='
  · obtain ⟨pair, hpair⟩ := Option.isSome_iff_exists.1 (hs.directive h)
    rw [next, if_pos h, hpair]
    exact Delimiters.valid_of_ofDirective? hpair
  · rwa [next, if_neg h]

lemma opening_prefix_text (d : Delimiters) (s : Spelling) : d.opening <+: s.text d := by
  rw [text]
  simp only [List.append_assoc, List.prefix_append]

/-- A tag begins with a character that is not blank. -/
lemma exists_cons_text (hd : d.Valid) (s : Spelling) :
    ∃ c t, s.text d = c :: t ∧ isBlank c = false := by
  obtain ⟨c, t, hopen, hc⟩ := exists_cons_of_isMark hd.1
  exact ⟨c, _, by rw [text, hopen]; rfl, hc⟩

/-- A tag ends with a character that is not blank. -/
lemma exists_concat_text (hd : d.Valid) (s : Spelling) :
    ∃ t c, s.text d = t ++ [c] ∧ isBlank c = false := by
  obtain ⟨t, c, hclose, hc⟩ := exists_concat_of_isMark hd.2
  by_cases h : s.tag.sigil = '\x7b'
  · exact ⟨_, '\x7d', by rw [text, brace, if_pos h], rfl⟩
  · exact ⟨_, c, by rw [text, brace, if_neg h, hclose, List.append_nil, ← List.append_assoc], hc⟩

/-- Right behind a tag no line starts. -/
lemma lineIndent?_text (hd : d.Valid) (s : Spelling) (before : Text) :
    Text.lineIndent? ((s.text d).reverse ++ before) = none := by
  obtain ⟨t, c, htext, hc⟩ := s.exists_concat_text hd
  rw [htext, List.reverse_append]
  exact Text.lineIndent?_cons_of_not_blank hc _

/-- A tag looks back over its own line only. -/
lemma token_congr (s : Spelling) {x y : Text} (h : Text.lineIndent? x = Text.lineIndent? y) :
    s.token x = s.token y := by
  rw [token_eq, token_eq, h]

lemma token_congr_getD (s : Spelling) {x y : Text}
    (h : (Text.lineIndent? x).getD [] = (Text.lineIndent? y).getD []) : s.token x = s.token y := by
  simp only [token_eq, Tag.token?, h]

/-- Only inclusions depend on where they stand: they get the indentation of their line. -/
lemma token_of_inclusion {x name i : Text} (h : s.token x = .inclusion name i) (y : Text) :
    s.token y = .inclusion name ((Text.lineIndent? y).getD []) := by
  rw [token_eq] at h ⊢
  unfold Tag.token? at h ⊢
  split at h
  case h_7 =>
    simp only [Option.getD_some, Token.inclusion.injEq] at h
    simp only [Option.getD_some, h.1]
  case h_10 => cases hpair : Delimiters.ofDirective? s.tag.content <;> simp [hpair] at h
  all_goals cases h

lemma indentation_of_inclusion {x name i : Text} (h : s.token x = .inclusion name i) :
    i = (Text.lineIndent? x).getD [] :=
  (Token.inclusion.inj (h.symm.trans (token_of_inclusion h x))).2

lemma token_of_ne_inclusion {x : Text} (h : ∀ name i, s.token x ≠ .inclusion name i) (y : Text) :
    s.token y = s.token x := by
  by_cases hsigil : s.tag.sigil = '>'
  · refine absurd ?_ (h (Text.trim s.tag.content) ((Text.lineIndent? x).getD []))
    simp [token_eq, Tag.token?, hsigil]
  · rw [token_eq, token_eq]
    unfold Tag.token?
    split
    case h_7 heq => exact absurd heq hsigil
    all_goals rfl

end Spelling

lemma standsAlone_congr (token : Token) {x y after : Text}
    (h : Text.lineIndent? x = Text.lineIndent? y) :
    StandsAlone token x after ↔ StandsAlone token y after := by
  rw [StandsAlone, StandsAlone, Text.atLineStart_congr h]

namespace Cut

lemma wellFormed_empty {d : Delimiters} (hd : d.Valid) : (last []).WellFormed d :=
  fun h => ne_nil_of_isMark hd.1 (List.infix_nil.1 h)

/-- What precedes a part of a template matters to its tokens only through its last line. -/
lemma tokensFrom_congr (cut : Cut) (ending : Text) (d : Delimiters) {x y : Text}
    (h : Text.lineIndent? x = Text.lineIndent? y) (alone : Bool) :
    cut.tokensFrom ending d x alone = cut.tokensFrom ending d y alone := by
  induction cut generalizing d x y alone with
  | last gap => rfl
  | tag gap s later ih =>
    have hstart := Text.lineIndent?_append_congr h gap.reverse
    have hnext := Text.lineIndent?_append_congr hstart (s.text d).reverse
    simp only [tokensFrom, s.token_congr hstart, standsAlone_congr _ hstart, ih _ hnext]

end Cut
end Mustache
