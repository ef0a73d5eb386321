import Mustache.Proofs.ByteReading
import Mustache.Proofs.CanonicalTag

/-! The space in front of the closing sequence of a written tag. The end of a body and the
beginning of the closing sequence can make up an occurrence of the closing sequence that begins
too early; one space parts them, since no closing sequence holds a blank. What a search finds is
then the whole body, also if the search starts behind the first character of a name that stands
without a sign. -/
namespace Mustache

/-- A text is read as a tag wherever it stands, and the reader stops right behind it. -/
def Tag.IsReadFrom (d : Delimiters) (tag : Tag) (text : Text) : Prop :=
  ∀ front after, Tag.read d (.behind front (text ++ after)) =
    .ok (tag, .behind (front ++ text) after)

lemma Tag.isReadFrom_text {d : Delimiters} {s : Spelling}
    (hpadding : ∀ c ∈ s.padding, isBlank c = true) (hsigil : isBlank s.tag.sigil = false)
    (hcontent : FirstAfter d.closing s.tag.content) : Tag.IsReadFrom d s.tag (s.text d) := by
  intro front after
  rw [Tag.read_of_text hpadding hsigil hcontent (Reader.rest_behind _ _), Reader.advance_behind]

namespace Canonical

/-- A separator makes a tag readable. `decided` is how it is chosen, by a search among bytes for
the closing sequence. If the closing sequence does not occur in the body, or in an end `t` of
it, then it is `first` found behind the separator, whatever follows the tag, and a reader that has
`scanned` the sign and what precedes `t` reads up to there. A tag is `signed` if its sign is a
sigil; in a tag without a sign the first character of the body that is no blank is read as the
sigil. Blanks in front of a sigil are skipped, and a sigil that is a brace takes another brace
behind the tag. -/
structure Separates (d : Delimiters) (sign body sep : Text) : Prop where
  blank : sep = [] ∨ sep = [' ']
  decided : ∀ find, FindsFirst find → (sep = [] ↔
    find (Text.bytes (body ++ d.closing)) (Text.bytes d.closing) = some (Text.byteSize body))
  text : tagText d sign body = d.opening ++ sign ++ body ++ sep ++ d.closing
  trim : Text.trim (body ++ sep) = Text.trim body
  first : ∀ {u t}, body = u ++ t → ¬ d.closing <:+: t → ∀ after,
    FirstSplit d.closing (t ++ sep ++ d.closing ++ after) (t ++ sep) after
  scanned : ∀ {u t}, body = u ++ t → ¬ d.closing <:+: t → ∀ front after,
    ((Reader.behind front (tagText d sign body ++ after)).advance
        (d.opening ++ sign ++ u).length).takeUntil d.closing =
      (some (t ++ sep),
        .behind (front ++ (d.opening ++ sign ++ u) ++ (t ++ sep)) (d.closing ++ after))
  signed : ∀ {padding sigil}, sign = padding ++ [sigil] → (∀ c ∈ padding, isBlank c = true) →
    isBlank sigil = false → ¬ d.closing <:+: body →
    Tag.IsReadFrom d ⟨sigil, body ++ sep⟩
      (tagText d sign body ++ Spelling.brace ⟨padding, ⟨sigil, body ++ sep⟩⟩)
  unsigned : ∀ {padding sigil t}, (∀ c ∈ sign, isBlank c = true) → body = padding ++ sigil :: t →
    (∀ c ∈ padding, isBlank c = true) → isBlank sigil = false → ¬ d.closing <:+: t →
    Text.trim (sigil :: (t ++ sep)) = Text.trim body ∧
      Tag.IsReadFrom d ⟨sigil, t ++ sep⟩
        (tagText d sign body ++ Spelling.brace ⟨sign ++ padding, ⟨sigil, t ++ sep⟩⟩)

variable {d : Delimiters} {sign body u t : Text}

lemma separator_eq_nil_or (closing body : Text) :
    separator closing body = [] ∨ separator closing body = [' '] := by
  unfold separator
  split
  · exact .inl rfl
  · exact .inr rfl

lemma separator_eq_nil_iff {closing : Text} :
    separator closing body = [] ↔ firstIndex? closing (body ++ closing) = some body.length := by
  simp [separator]

/-- The search among bytes that decides on the separator agrees with the one among characters. -/
lemma separator_eq_nil_iff_bytes {find : List UInt8 → List UInt8 → Option Nat}
    (hfind : FindsFirst find) {closing : Text} : separator closing body = [] ↔
      find (Text.bytes (body ++ closing)) (Text.bytes closing) = some (Text.byteSize body) := by
  rw [separator_eq_nil_iff, hfind.eq_firstIndex?]
  simp only [firstIndex?_bytes, Option.map_eq_some_iff]
  constructor
  · intro h
    exact ⟨body.length, h, by rw [List.take_left]⟩
  · rintro ⟨n, hn, hsize⟩
    obtain ⟨u, w, hsplit, rfl, -⟩ := exists_of_firstIndex?_eq_some hn
    -- The closing sequence at the end is no smaller than what follows the one found first.
    have hw : w = [] := by
      have htotal := congrArg Text.byteSize hsplit
      rw [hsplit, List.append_assoc, List.take_left] at hsize
      rw [Text.byteSize_append, Text.byteSize_append, Text.byteSize_append, hsize] at htotal
      cases w with
      | nil => rfl
      | cons c w =>
        have hpos := c.utf8Size_pos
        rw [Text.byteSize_cons] at htotal
        omega
    rw [hw, List.append_nil] at hsplit
    rw [hn, List.append_cancel_right hsplit]

/-- A tag divided within its body. -/
lemma tagText_eq_append (hbody : body = u ++ t) : tagText d sign body =
    (d.opening ++ sign ++ u) ++ (t ++ separator d.closing body ++ d.closing) := by
  rw [tagText]
  nth_rewrite 1 [hbody]
  simp only [List.append_assoc]

section Read

variable (hclosing : Delimiters.isMark d.closing = true) (hbody : body = u ++ t)
  (hno : ¬ d.closing <:+: t)
include hclosing hbody hno

lemma firstAfter_of_body : FirstAfter d.closing (t ++ separator d.closing body) :=
  firstAfter_append_separator hclosing ⟨u, hbody.symm⟩ hno

lemma takeUntil_tagText (front after : Text) :
    ((Reader.behind front (tagText d sign body ++ after)).advance
        (d.opening ++ sign ++ u).length).takeUntil d.closing =
      (some (t ++ separator d.closing body),
        .behind (front ++ (d.opening ++ sign ++ u) ++ (t ++ separator d.closing body))
          (d.closing ++ after)) := by
  rw [tagText_eq_append hbody, List.append_assoc _ _ after, Reader.advance_behind]
  exact Reader.takeUntil_behind (firstAfter_of_body hclosing hbody hno) _ after

/-- A reader divides a tag at the sigil that it takes: what precedes the rest `t` of the body is
some blanks and the sigil. -/
lemma isReadFrom_tagText {padding : Text} {sigil : Char} (hsign : sign ++ u = padding ++ [sigil])
    (hpadding : ∀ c ∈ padding, isBlank c = true) (hsigil : isBlank sigil = false) :
    Tag.IsReadFrom d ⟨sigil, t ++ separator d.closing body⟩
      (tagText d sign body ++
        Spelling.brace ⟨padding, ⟨sigil, t ++ separator d.closing body⟩⟩) := by
  have hcontent := firstAfter_of_body hclosing hbody hno
  have htext : tagText d sign body = d.opening ++ padding ++
      sigil :: (t ++ separator d.closing body) ++ d.closing := by
    rw [tagText_eq_append hbody, List.append_assoc d.opening, hsign]
    simp only [List.append_assoc, List.cons_append, List.nil_append]
  rw [htext]
  exact Tag.isReadFrom_text (s := ⟨padding, ⟨sigil, _⟩⟩) hpadding hsigil hcontent

end Read

/-- One space is enough, and none is written without need. Whatever the pair, the sign and the
body are, and whatever follows the tag, the closing sequence is found where the tag ends, provided
that it occurs neither in the body nor in the part of the body that is searched. What stands in
front of it is the body, but for blanks at the end. -/
theorem tagText_separates (hclosing : Delimiters.isMark d.closing = true) (sign body : Text) :
    ∃ sep, Separates d sign body sep := by
  refine ⟨separator d.closing body, ?_⟩
  constructor
  case blank => exact separator_eq_nil_or d.closing body
  case decided => exact fun find hfind => separator_eq_nil_iff_bytes hfind
  case text => rfl
  case trim => exact trim_append_separator body
  case first =>
    intro u t hbody hno after
    exact (firstAfter_of_body hclosing hbody hno).firstSplit after
  case scanned =>
    intro u t hbody hno front after
    exact takeUntil_tagText hclosing hbody hno front after
  case signed =>
    intro padding sigil hsign hpadding hsigil hno
    exact isReadFrom_tagText hclosing (List.nil_append body).symm hno
      (by rw [List.append_nil, hsign]) hpadding hsigil
  case unsigned =>
    intro padding sigil t hsign hbody hpadding hsigil hno
    have hdivided : body = (padding ++ [sigil]) ++ t := by
      rw [hbody, List.append_assoc, List.singleton_append]
    have hblanks : ∀ c ∈ sign ++ padding, isBlank c = true := by
      intro c hc
      exact (List.mem_append.1 hc).elim (hsign c) (hpadding c)
    constructor
    · rw [← List.cons_append, trim_append_separator, hbody, Text.trim_blanks_append hpadding]
    · exact isReadFrom_tagText hclosing hdivided hno (by rw [List.append_assoc]) hblanks hsigil

/-- Without the space, this name would end behind its first two characters: the closing sequence
overlaps itself, and the name ends with its beginning. -/
theorem tagText_separates_overlap :
    tagText ⟨['«'], "ößö".toList⟩ [] "ößöß".toList = "«ößöß ößö".toList ∧
      firstIndex? "ößö".toList ("ßöß".toList ++ "ößö".toList) = some 1 ∧
      Tag.IsReadFrom ⟨['«'], "ößö".toList⟩ ⟨'ö', "ßöß ".toList⟩ "«ößöß ößö".toList ∧
      Text.trim ('ö' :: "ßöß ".toList) = "ößöß".toList := by
  obtain ⟨sep, h⟩ := tagText_separates (d := ⟨['«'], "ößö".toList⟩) (by decide) [] "ößöß".toList
  have hwritten : tagText ⟨['«'], "ößö".toList⟩ [] "ößöß".toList = "«ößöß ößö".toList := by decide
  have hsep : sep = [' '] := by
    refine h.blank.resolve_left fun hnil => ?_
    have htext := h.text
    rw [hnil] at htext
    exact absurd htext (by decide)
  subst hsep
  have hname : "ößöß".toList = [] ++ 'ö' :: "ßöß".toList := by decide
  obtain ⟨htrim, hread⟩ := h.unsigned (by simp) hname (by simp) (by decide) (by decide)
  rw [hwritten] at hread
  exact ⟨hwritten, by decide, hread, htrim⟩

end Canonical
end Mustache
