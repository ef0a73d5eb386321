import Mustache.Canonical
import Mustache.Proofs.Cut

/-! Tags in their canonical spelling. The separator keeps the closing sequence from being found
early, and blanks at the end of a content are trimmed away, so the canonical spelling of a tag is
read as a tag of the same meaning. -/
namespace Mustache

namespace Text

lemma trim_append_blanks {w : Text} (hw : ∀ c ∈ w, isBlank c = true) (t : Text) :
    trim (t ++ w) = trim t := by
  rw [trim, trim, List.dropWhile_append]
  by_cases h : t.dropWhile isBlank = []
  · simp [h, List.dropWhile_eq_nil_iff.2 hw]
  · rw [if_neg (by simpa using h)]
    exact dropEndWhile_append_of_all hw _

lemma trim_blanks_append {w : Text} (hw : ∀ c ∈ w, isBlank c = true) (t : Text) :
    trim (w ++ t) = trim t := by
  rw [trim, List.dropWhile_append_of_pos hw]
  rfl

lemma trim_infix (t : Text) : trim t <:+: t := by
  have hend : trim t <+: t.dropWhile isBlank := List.rdropWhile_prefix isBlank _
  exact hend.isInfix.trans (List.dropWhile_suffix _).isInfix

lemma trim_trim (t : Text) : trim (trim t) = trim t := by
  obtain ⟨w, ht, hw⟩ := exists_dropEndWhile_append isBlank (t.dropWhile isBlank)
  have hdrop : (t.dropWhile isBlank).dropWhile isBlank = t.dropWhile isBlank :=
    List.dropWhile_idempotent isBlank t
  calc trim (trim t) = trim (trim t ++ w) := (trim_append_blanks hw _).symm
    _ = trim (t.dropWhile isBlank) := congrArg trim ht.symm
    _ = trim t := by rw [trim, hdrop]; rfl

lemma trim_cons {c : Char} (hc : isBlank c = false) (t : Text) :
    trim (c :: t) = c :: dropEndWhile isBlank t := by
  rw [trim, List.dropWhile_cons_of_neg (by simp [hc])]
  exact dropEndWhile_append_cons hc [] t

end Text

namespace Delimiters

variable {content : Text} {pair : Delimiters}

lemma notMem_closing_of_ofDirective? (h : ofDirective? content = some pair) :
    '=' ∉ pair.closing := by
  simp only [ofDirective?] at h
  split at h
  · obtain ⟨rfl, -⟩ := ofPair?_eq_some_iff.1 h
    intro hmem
    have htake := List.mem_takeWhile_imp (List.mem_filter.1 hmem).1
    simp at htake
  · cases h

/-- A directive written with one space and the sign right behind the pair sets the pair. -/
lemma ofDirective?_display (hpair : pair.Valid) (hsign : '=' ∉ pair.closing) (t : Text) :
    ofDirective? (pair.display ++ '=' :: t) = some pair := by
  have hopen : ∀ c ∈ pair.opening, (!isBlank c) = true := by
    intro c hc
    by_contra hb
    exact notMem_of_isMark hpair.1 (by simpa using hb) hc
  have hclose : ∀ c ∈ pair.closing, (!isBlank c) = true := by
    intro c hc
    by_contra hb
    exact notMem_of_isMark hpair.2 (by simpa using hb) hc
  have hnosign : ∀ c ∈ ' ' :: pair.closing, (c != '=') = true := by
    intro c hc
    rcases List.mem_cons.1 hc with rfl | hc
    · rfl
    · exact bne_iff_ne.2 fun h => hsign (h ▸ hc)
  have hbody : (pair.display ++ '=' :: t).dropWhile isBlank =
      pair.opening ++ ' ' :: (pair.closing ++ '=' :: t) := by
    obtain ⟨c, u, hcons, hc⟩ := exists_cons_of_isMark hpair.1
    simp [display, hcons, hc]
  have htake : (' ' :: (pair.closing ++ '=' :: t)).takeWhile (· != '=') = ' ' :: pair.closing := by
    rw [← List.cons_append, List.takeWhile_append_of_pos hnosign]
    simp
  have hfilter : (' ' :: pair.closing).filter (!isBlank ·) = pair.closing := by
    rw [List.filter_cons_of_neg (by simp [isBlank])]
    exact List.filter_eq_self.2 hclose
  simp only [ofDirective?, hbody]
  rw [List.takeWhile_append_of_pos hopen, List.dropWhile_append_of_pos hopen,
    List.takeWhile_cons_of_neg (by simp [isBlank]), List.dropWhile_cons_of_neg (by simp [isBlank]),
    htake, hfilter, if_pos (by simp), List.append_nil]
  exact ofPair?_eq_some_iff.2 ⟨rfl, hpair⟩

end Delimiters

namespace Canonical

variable {closing body : Text}

lemma isBlank_of_mem_separator {c : Char} (hc : c ∈ separator closing body) :
    isBlank c = true := by
  unfold separator at hc
  split at hc
  · cases hc
  · rw [List.mem_singleton.1 hc]
    rfl

/-- The closing sequence is first found behind the separator, also by a search that starts inside
the body. -/
lemma firstAfter_append_separator (hclosing : Delimiters.isMark closing = true) {t : Text}
    (ht : t <:+ body) (hno : ¬ closing <:+: t) :
    FirstAfter closing (t ++ separator closing body) := by
  unfold separator
  split
  next hfound =>
    obtain ⟨u, rfl⟩ := ht
    rw [List.append_nil]
    exact (firstIndex?_append_self_iff.1 (beq_iff_eq.1 hfound)).of_append
  next =>
    exact firstAfter_append_blanks hclosing hno (by simp) (by simp [isBlank])

/-- The separator is trimmed away again. -/
lemma trim_append_separator (name : Text) :
    Text.trim (name ++ separator closing body) = Text.trim name :=
  Text.trim_append_blanks (fun _ hc => isBlank_of_mem_separator hc) name

end Canonical

namespace Tag

/-- The characters that are signs of their own; any other begins the name of an escaped value. -/
def signs : List Char := ['!', '=', '#', '^', '$', '<', '/', '>', '&', '\x7b']

lemma token?_of_notMem {sigil : Char} (h : sigil ∉ signs) (content : Text)
    (indent : Option Text) :
    token? ⟨sigil, content⟩ indent = some (.escaped (Text.trim (sigil :: content))) := by
  simp only [signs, List.mem_cons, not_or] at h
  unfold token?
  split <;> simp_all

end Tag

namespace Spelling

variable {d : Delimiters} {s : Spelling} {sigil : Char} {body : Text}

/-- A tag without padding whose content is a body and the separator that it needs. -/
def compact (d : Delimiters) (sigil : Char) (body : Text) : Spelling :=
  ⟨[], ⟨sigil, body ++ Canonical.separator d.closing body⟩⟩

lemma text_compact (hs : sigil ≠ '\x7b') :
    (compact d sigil body).text d = Canonical.tagText d [sigil] body := by
  simp [text, compact, brace, hs, Canonical.tagText]

lemma wellFormed_compact (hd : d.Valid) (hs : isBlank sigil = false)
    (hbody : ¬ d.closing <:+: body)
    (hdirective : sigil = '=' →
      (Delimiters.ofDirective? (body ++ Canonical.separator d.closing body)).isSome) :
    (compact d sigil body).WellFormed d where
  padding := by simp [compact]
  sigil := hs
  content := Canonical.firstAfter_append_separator hd.2 List.suffix_rfl hbody
  directive := hdirective

/-- The tag has a canonical spelling that is read back with the same meaning. -/
def HasCanonical (d : Delimiters) (s : Spelling) : Prop :=
  ∃ s' : Spelling, s'.WellFormed d ∧ s'.token = s.token ∧
    ∀ before, s'.text d = Canonical.spell d (s.token before)

lemma hasCanonical_comment (hd : d.Valid) (hs : s.tag.sigil = '!') : HasCanonical d s := by
  have hbody : ¬ d.closing <:+: [] := by
    rw [List.infix_nil]
    exact ne_nil_of_isMark hd.2
  refine ⟨compact d '!' [], wellFormed_compact hd rfl hbody (by simp), ?_, ?_⟩
  · funext before
    simp [token_eq, Tag.token?, compact, hs]
  · intro before
    rw [text_compact (by decide)]
    simp [token_eq, Tag.token?, hs, Canonical.spell, Token.kind, Kind.sigil?, Canonical.body,
      Token.name?]

/-- Tags that are written as a sign and a name; a brace is written as another sign. -/
lemma hasCanonical_named (hd : d.Valid) (hs : s.WellFormed d)
    (hsign : s.tag.sigil ∈ ['#', '^', '$', '<', '/', '>', '&', '\x7b']) : HasCanonical d s := by
  obtain ⟨padding, sigil, content⟩ := s
  have hname : ¬ d.closing <:+: Text.trim content := fun h =>
    hs.content.not_infix (ne_nil_of_isMark hd.2) (h.trans (Text.trim_infix content))
  have htrim : Text.trim (Text.trim content ++
      Canonical.separator d.closing (Text.trim content)) = Text.trim content := by
    rw [Canonical.trim_append_separator, Text.trim_trim]
  refine ⟨compact d (if sigil = '\x7b' then '&' else sigil) (Text.trim content), ?_⟩
  simp only [List.mem_cons, List.not_mem_nil, or_false] at hsign
  rcases hsign with rfl | rfl | rfl | rfl | rfl | rfl | rfl | rfl
  all_goals
    refine ⟨wellFormed_compact hd rfl hname (by simp), ?_, fun _ => text_compact (by decide)⟩
    funext before
    simp [token_eq, Tag.token?, compact, htrim]

lemma hasCanonical_directive (hd : d.Valid) (hs : s.WellFormed d) (hsign : s.tag.sigil = '=')
    {x : Text}
    (hfit : ∀ pair, s.token x = .setDelimiters pair → ¬ d.closing <:+: pair.display ++ ['=']) :
    HasCanonical d s := by
  obtain ⟨pair, hpair⟩ := Option.isSome_iff_exists.1 (hs.directive hsign)
  have htoken : s.token = fun _ => .setDelimiters pair := by
    funext before
    rw [token_eq, Tag.token?_of_eq hsign, hpair]
    rfl
  have hread : Delimiters.ofDirective? (pair.display ++ ['='] ++
      Canonical.separator d.closing (pair.display ++ ['='])) = some pair := by
    rw [List.append_assoc]
    exact Delimiters.ofDirective?_display (Delimiters.valid_of_ofDirective? hpair)
      (Delimiters.notMem_closing_of_ofDirective? hpair) _
  have hbody : ¬ d.closing <:+: pair.display ++ ['='] := hfit pair (by rw [htoken])
  refine ⟨compact d '=' (pair.display ++ ['=']),
    wellFormed_compact hd rfl hbody fun _ => by rw [hread]; rfl, ?_, ?_⟩
  · funext before
    rw [token_eq, Tag.token?_of_eq rfl, htoken]
    simp only [compact, hread]
    rfl
  · intro before
    rw [htoken]
    exact text_compact (by decide)

/-- The sigil of an escaped value is the first character of its name, so the search for the
closing sequence starts behind that character. -/
lemma hasCanonical_escaped (hd : d.Valid) (hs : s.WellFormed d)
    (hsign : s.tag.sigil ∉ Tag.signs) : HasCanonical d s := by
  obtain ⟨padding, sigil, content⟩ := s
  change sigil ∉ Tag.signs at hsign
  have hname : Text.trim (sigil :: content) = sigil :: Text.dropEndWhile isBlank content :=
    Text.trim_cons hs.sigil content
  have hno : ¬ d.closing <:+: Text.dropEndWhile isBlank content := fun h =>
    hs.content.not_infix (ne_nil_of_isMark hd.2)
      (h.trans (List.rdropWhile_prefix isBlank content).isInfix)
  generalize Text.dropEndWhile isBlank content = name at hname hno
  have htoken : ∀ padding' content' before,
      token ⟨padding', sigil, content'⟩ before = .escaped (Text.trim (sigil :: content')) := by
    intro padding' content' before
    rw [token_eq, Tag.token?_of_notMem hsign]
    rfl
  have htrim : Text.trim (sigil :: (name ++ Canonical.separator d.closing (sigil :: name))) =
      sigil :: name := by
    rw [← List.cons_append, Canonical.trim_append_separator, ← hname, Text.trim_trim]
  refine ⟨⟨[], sigil, name ++ Canonical.separator d.closing (sigil :: name)⟩, ?_, ?_, ?_⟩
  · refine ⟨by simp, hs.sigil, ?_, ?_⟩
    · exact Canonical.firstAfter_append_separator hd.2 (List.suffix_cons sigil name) hno
    · intro h
      exact absurd (show sigil = '=' from h) fun h => hsign (h ▸ by decide)
  · funext before
    rw [htoken, htoken, htrim, hname]
  · intro before
    have hbrace : sigil ≠ '\x7b' := fun h => hsign (h ▸ by decide)
    simp [htoken, hname, text, brace, hbrace, Canonical.spell, Canonical.tagText, Canonical.body,
      Token.name?, Token.kind, Kind.sigil?]

/-- Every tag has a canonical spelling, but for a directive that holds the closing sequence in
effect. -/
lemma WellFormed.hasCanonical (hd : d.Valid) (hs : s.WellFormed d) {x : Text}
    (hfit : ∀ pair, s.token x = .setDelimiters pair → ¬ d.closing <:+: pair.display ++ ['=']) :
    HasCanonical d s := by
  by_cases hcomment : s.tag.sigil = '!'
  · exact hasCanonical_comment hd hcomment
  by_cases hdirective : s.tag.sigil = '='
  · exact hasCanonical_directive hd hs hdirective hfit
  by_cases hnamed : s.tag.sigil ∈ ['#', '^', '$', '<', '/', '>', '&', '\x7b']
  · exact hasCanonical_named hd hs hnamed
  · apply hasCanonical_escaped hd hs
    simpa [Tag.signs, hcomment, hdirective] using hnamed

end Spelling

end Mustache
