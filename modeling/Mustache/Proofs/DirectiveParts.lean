import Mustache.Proofs.Reached

/-! The grammar of directives. The content of a directive that sets a pair has exactly one
splitting into blanks, a word, blanks, a closing sequence and a sign; any other content sets no
pair. A reader of its own that goes over the content move by move comes to the same pair. -/
namespace Mustache

/-- The content of a directive in its parts: the new sequences, the blanks in front of each, and
what follows the sign. -/
structure DirectiveParts where
  before : Text
  opening : Text
  between : Text
  /-- The new closing sequence as it is written, with blanks inside or behind it. -/
  closing : Text
  ignored : Text
  deriving DecidableEq, Repr

namespace DirectiveParts

/-- The content that has these parts. -/
def text (p : DirectiveParts) : Text :=
  p.before ++ p.opening ++ p.between ++ p.closing ++ '=' :: p.ignored

/-- The pair that the parts set: blanks are left out of the closing sequence. -/
def pair (p : DirectiveParts) : Delimiters := ⟨p.opening, p.closing.filter (!isBlank ·)⟩

/-- The parts of a content that sets a pair. -/
structure WellFormed (p : DirectiveParts) : Prop where
  before : ∀ c ∈ p.before, isBlank c = true
  opening_ne_nil : p.opening ≠ []
  opening : ∀ c ∈ p.opening, isBlank c = false
  between_ne_nil : p.between ≠ []
  between : ∀ c ∈ p.between, isBlank c = true
  sign : '=' ∉ p.closing
  closing_head : ∀ c ∈ p.closing.head?, isBlank c = false
  closing : ∃ c ∈ p.closing, isBlank c = false

/-- The parts of any content, each of them as long as it can be. -/
def ofContent (content : Text) : DirectiveParts :=
  let body := content.dropWhile isBlank
  let tail := body.dropWhile (!isBlank ·)
  let rest := tail.dropWhile isBlank
  { before := content.takeWhile isBlank
    opening := body.takeWhile (!isBlank ·)
    between := tail.takeWhile isBlank
    closing := rest.takeWhile (· != '=')
    ignored := (rest.dropWhile (· != '=')).tail }

end DirectiveParts

namespace Text

/-- A run of a class in front of a character outside it. -/
lemma takeWhile_run {q : Char → Bool} {w r : Text} (hw : ∀ c ∈ w, q c = true)
    (hr : ∀ c ∈ r.head?, q c = false) : (w ++ r).takeWhile q = w := by
  rw [List.takeWhile_append_of_pos hw]
  cases r with
  | nil => simp
  | cons c r =>
    rw [List.takeWhile_cons_of_neg (by simp [hr c rfl]), List.append_nil]

lemma dropWhile_run {q : Char → Bool} {w r : Text} (hw : ∀ c ∈ w, q c = true)
    (hr : ∀ c ∈ r.head?, q c = false) : (w ++ r).dropWhile q = r := by
  rw [List.dropWhile_append_of_pos hw]
  cases r with
  | nil => rfl
  | cons c r => rw [List.dropWhile_cons_of_neg (by simp [hr c rfl])]

/-- What is left behind a run does not begin in the class. -/
lemma head_dropWhile {q : Char → Bool} (t : Text) : ∀ c ∈ (t.dropWhile q).head?, q c = false := by
  intro c hc
  have h := List.head?_dropWhile_not q t
  rw [Option.mem_def.1 hc] at h
  simpa using h

lemma isBlank_sign : isBlank '=' = false := rfl

lemma sign_mem_dropWhile_iff {t : Text} : '=' ∈ t.dropWhile isBlank ↔ '=' ∈ t := by
  constructor
  · exact fun h => (List.dropWhile_suffix _).subset h
  · intro h
    rw [← List.takeWhile_append_dropWhile (p := isBlank) (l := t), List.mem_append] at h
    rcases h with h | h
    · exact absurd (List.mem_takeWhile_imp h) (by simp [isBlank_sign])
    · exact h

/-- A sign splits what precedes it from what follows it. -/
lemma takeWhile_append_sign {c : Char} {t : Text} (h : c ∈ t) :
    t.takeWhile (· != c) ++ c :: (t.dropWhile (· != c)).tail = t := by
  obtain ⟨u, v, rfl, hu⟩ := List.eq_append_cons_of_mem h
  have hne : ∀ a ∈ u, (a != c) = true := fun a ha => bne_iff_ne.2 fun h => hu (h ▸ ha)
  rw [takeWhile_run hne (by simp), dropWhile_run hne (by simp)]
  rfl

end Text

namespace DirectiveParts

variable {p q : DirectiveParts} {content : Text}

lemma head_append {t u : Text} (ht : t ≠ []) : ∀ c ∈ (t ++ u).head?, c ∈ t.head? := by
  cases t with
  | nil => exact absurd rfl ht
  | cons a t => exact fun c hc => hc

/-- The parts of a well-formed content are the longest ones, so no other parts make it up. -/
lemma WellFormed.ofContent_text (hp : p.WellFormed) : ofContent p.text = p := by
  obtain ⟨before, opening, between, closing, ignored⟩ := p
  have hclosing : closing ≠ [] := by
    obtain ⟨c, hc, -⟩ := hp.closing
    exact List.ne_nil_of_mem hc
  have hsign : ∀ c ∈ closing, (c != '=') = true :=
    fun c hc => bne_iff_ne.2 fun h => hp.sign (h ▸ hc)
  have hword : ∀ c ∈ opening, (!isBlank c) = true := fun c hc => by simp [hp.opening c hc]
  have hrest : ∀ c ∈ (closing ++ '=' :: ignored).head?, isBlank c = false :=
    fun c hc => hp.closing_head c (head_append hclosing c hc)
  have htail : ∀ c ∈ (between ++ (closing ++ '=' :: ignored)).head?, (!isBlank c) = false := by
    intro c hc
    have hmem := List.mem_of_mem_head? (head_append hp.between_ne_nil c hc)
    simp [hp.between c hmem]
  have hbody : ∀ c ∈ (opening ++ (between ++ (closing ++ '=' :: ignored))).head?,
      isBlank c = false :=
    fun c hc => hp.opening c (List.mem_of_mem_head? (head_append hp.opening_ne_nil c hc))
  simp only [text, ofContent, List.append_assoc]
  rw [Text.dropWhile_run hp.before hbody, Text.takeWhile_run hp.before hbody,
    Text.dropWhile_run hword htail, Text.takeWhile_run hword htail,
    Text.dropWhile_run hp.between hrest, Text.takeWhile_run hp.between hrest,
    Text.dropWhile_run hsign (by simp), Text.takeWhile_run hsign (by simp)]
  rfl

lemma WellFormed.eq_of_text_eq (hp : p.WellFormed) (hq : q.WellFormed) (h : p.text = q.text) :
    p = q := by
  rw [← hp.ofContent_text, h, hq.ofContent_text]

/-- The parts of a content with a sign behind its first word make it up. -/
lemma text_ofContent
    (h : '=' ∈ (content.dropWhile isBlank).dropWhile (!isBlank ·)) :
    (ofContent content).text = content := by
  simp only [text, ofContent, List.append_assoc,
    Text.takeWhile_append_sign (Text.sign_mem_dropWhile_iff.2 h), List.takeWhile_append_dropWhile]

end DirectiveParts

lemma firstAfter_singleton {c : Char} {u : Text} (h : c ∉ u) : FirstAfter [c] u := by
  induction u with
  | nil => exact firstAfter_nil _
  | cons a u ih =>
    rw [List.mem_cons, not_or] at h
    refine firstAfter_cons.2 ⟨?_, ih h.2⟩
    simpa using h.1

namespace Reader

variable {r : Reader}

lemma rest_skipBlanks (r : Reader) : r.skipBlanks.2.rest = r.rest.dropWhile isBlank := by
  apply rest_advance_of_append (t := r.rest.takeWhile isBlank)
  · exact List.takeWhile_append_dropWhile.symm
  · rfl

lemma takeUntilChar_of_append {q : Char → Bool} {w t : Text} {c : Char}
    (hr : r.rest = w ++ c :: t) (hw : ∀ a ∈ w, q a = false) (hc : q c = true) :
    r.takeUntilChar q = (some w, r.advance w.length) := by
  have hfind : (w ++ c :: t).findIdx? q = some w.length := by
    simp [List.findIdx?_append, List.findIdx?_eq_none_iff.2 hw, List.findIdx?_cons, hc]
  rw [takeUntilChar, hr, hfind]
  simp [peek, hr]

lemma takeUntilChar_of_forall {q : Char → Bool} (hr : ∀ a ∈ r.rest, q a = false) :
    r.takeUntilChar q = (none, r.toEnd) := by
  rw [takeUntilChar, List.findIdx?_eq_none_iff.2 hr]

lemma fst_takeThrough_singleton (r : Reader) (c : Char) :
    (r.takeThrough [c]).1 =
      if c ∈ r.rest then some (r.rest.takeWhile (· != c)) else none := by
  split
  next hmem =>
    have hfirst : FirstAfter [c] (r.rest.takeWhile (· != c)) := by
      apply firstAfter_singleton
      intro h
      simpa using List.mem_takeWhile_imp h
    have hrest : r.rest =
        r.rest.takeWhile (· != c) ++ [c] ++ (r.rest.dropWhile (· != c)).tail := by
      rw [List.append_assoc, List.singleton_append, Text.takeWhile_append_sign hmem]
    rw [takeThrough, takeUntil_of_firstAfter hrest hfirst]
  next hmem =>
    have hno : ¬ [c] <:+: r.rest := fun h => hmem (h.subset (List.mem_singleton_self c))
    rw [takeThrough, takeUntil_of_not_infix hno]

end Reader

namespace Delimiters

variable {p : DirectiveParts} {content : Text} {pair : Delimiters}

lemma isMark_iff {t : Text} : isMark t = true ↔ t ≠ [] ∧ ∀ c ∈ t, isBlank c = false := by
  simp [isMark]

/-- Blanks in front of the closing sequence are left out like those inside it. -/
lemma filter_takeWhile_sign (tail : Text) :
    (tail.takeWhile (· != '=')).filter (!isBlank ·) =
      ((tail.dropWhile isBlank).takeWhile (· != '=')).filter (!isBlank ·) := by
  have hblank : ∀ c ∈ tail.takeWhile isBlank, isBlank c = true :=
    fun c hc => List.mem_takeWhile_imp hc
  have hsign : ∀ c ∈ tail.takeWhile isBlank, (c != '=') = true := by
    intro c hc
    rw [bne_iff_ne]
    rintro rfl
    exact absurd (hblank _ hc) (by simp [Text.isBlank_sign])
  have hnone : (tail.takeWhile isBlank).filter (!isBlank ·) = [] := by
    rw [List.filter_eq_nil_iff]
    intro c hc
    simp [hblank c hc]
  conv_lhs => rw [← List.takeWhile_append_dropWhile (p := isBlank) (l := tail)]
  rw [List.takeWhile_append_of_pos hsign, List.filter_append, hnone, List.nil_append]

/-- The longest parts of a content decide which pair it sets. -/
lemma ofDirective?_eq_ofContent (content : Text) :
    ofDirective? content =
      if '=' ∈ (content.dropWhile isBlank).dropWhile (!isBlank ·) then
        ofPair? (DirectiveParts.ofContent content).opening
          ((DirectiveParts.ofContent content).closing.filter (!isBlank ·))
      else none := by
  simp only [ofDirective?, DirectiveParts.ofContent, List.contains_iff_mem]
  rw [filter_takeWhile_sign]

lemma wellFormed_ofContent (hsign : '=' ∈ (content.dropWhile isBlank).dropWhile (!isBlank ·))
    (hvalid : (DirectiveParts.ofContent content).pair.Valid) :
    (DirectiveParts.ofContent content).WellFormed := by
  obtain ⟨hopening, hclosing⟩ := hvalid
  rw [isMark_iff] at hopening hclosing
  refine ⟨fun c hc => List.mem_takeWhile_imp hc, hopening.1, hopening.2, ?_,
    fun c hc => List.mem_takeWhile_imp hc, ?_, ?_, ?_⟩
  · -- Behind the first word comes a blank, for that is where the word ends.
    have hhead := Text.head_dropWhile (q := (!isBlank ·)) (content.dropWhile isBlank)
    simp only [DirectiveParts.ofContent]
    cases htail : (content.dropWhile isBlank).dropWhile (!isBlank ·) with
    | nil => simp [htail] at hsign
    | cons c t =>
      have hc : isBlank c = true := by simpa using hhead c (by rw [htail]; rfl)
      rw [List.takeWhile_cons_of_pos hc]
      exact List.cons_ne_nil _ _
  · intro hmem
    simpa using List.mem_takeWhile_imp hmem
  · intro c hc
    simp only [DirectiveParts.ofContent] at hc
    rw [List.head?_takeWhile, Option.mem_def, Option.filter_eq_some_iff] at hc
    exact Text.head_dropWhile _ c hc.1
  · obtain ⟨c, hc⟩ := List.exists_mem_of_ne_nil _ hclosing.1
    obtain ⟨hmem, hc⟩ := List.mem_filter.1 hc
    exact ⟨c, hmem, by simpa using hc⟩

/-- Well-formed parts set their pair. -/
lemma ofDirective?_text (hp : p.WellFormed) : ofDirective? p.text = some p.pair := by
  have hparts := hp.ofContent_text
  have hsign : '=' ∈ (p.text.dropWhile isBlank).dropWhile (!isBlank ·) := by
    have hbefore : p.text.takeWhile isBlank = p.before := congrArg DirectiveParts.before hparts
    have hopening : (p.text.dropWhile isBlank).takeWhile (!isBlank ·) = p.opening :=
      congrArg DirectiveParts.opening hparts
    have hsplit : p.before ++ (p.opening ++ (p.text.dropWhile isBlank).dropWhile (!isBlank ·)) =
        p.before ++ (p.opening ++ (p.between ++ p.closing ++ '=' :: p.ignored)) := by
      rw [← hopening, List.takeWhile_append_dropWhile, hopening, ← hbefore,
        List.takeWhile_append_dropWhile, hbefore]
      simp [DirectiveParts.text]
    rw [List.append_cancel_left (List.append_cancel_left hsplit)]
    simp
  have hclosing : p.closing.filter (!isBlank ·) ≠ [] := by
    obtain ⟨c, hc, hblank⟩ := hp.closing
    exact List.ne_nil_of_mem (List.mem_filter.2 ⟨hc, by simp [hblank]⟩)
  have hvalid : p.pair.Valid := by
    refine ⟨isMark_iff.2 ⟨hp.opening_ne_nil, hp.opening⟩, isMark_iff.2 ⟨hclosing, ?_⟩⟩
    intro c hc
    simpa using (List.mem_filter.1 hc).2
  rw [ofDirective?_eq_ofContent, if_pos hsign, hparts]
  exact ofPair?_eq_some_iff.2 ⟨rfl, hvalid⟩

/-- A content sets a pair exactly if it has parts with that pair. -/
lemma ofDirective?_eq_some_iff :
    ofDirective? content = some pair ↔
      ∃ p : DirectiveParts, p.WellFormed ∧ p.text = content ∧ p.pair = pair := by
  constructor
  · intro h
    rw [ofDirective?_eq_ofContent] at h
    split at h
    next hsign =>
      obtain ⟨rfl, hvalid⟩ := ofPair?_eq_some_iff.1 h
      exact ⟨_, wellFormed_ofContent hsign hvalid, DirectiveParts.text_ofContent hsign, rfl⟩
    next => cases h
  · rintro ⟨p, hp, rfl, rfl⟩
    exact ofDirective?_text hp

/-- Read a content with a reader of its own: over blanks, up to the next blank, over blanks and
through the next sign. A search that misses sets no pair. -/
def readDirective? (content : Text) : Option Delimiters := do
  let inside := (Reader.ofText content).skipBlanks.2
  let opening ← (inside.takeUntilChar isBlank).1
  let closing ← ((inside.takeUntilChar isBlank).2.skipBlanks.2.takeThrough ['=']).1
  ofPair? opening (closing.filter (!isBlank ·))

/-- Moving over a content comes to the pair that its parts set. -/
lemma readDirective?_eq_ofDirective? (content : Text) :
    readDirective? content = ofDirective? content := by
  have hbody : (Reader.ofText content).skipBlanks.2.rest = content.dropWhile isBlank :=
    Reader.rest_skipBlanks _
  simp only [readDirective?, ofDirective?_eq_ofContent, DirectiveParts.ofContent]
  generalize (Reader.ofText content).skipBlanks.2 = inside at hbody ⊢
  generalize content.dropWhile isBlank = body at hbody ⊢
  cases htail : body.dropWhile (!isBlank ·) with
  | nil =>
    have hword : ∀ c ∈ inside.rest, isBlank c = false := by
      rw [hbody]
      simpa using List.dropWhile_eq_nil_iff.1 htail
    rw [Reader.takeUntilChar_of_forall hword, if_neg (by simp)]
    rfl
  | cons c t =>
    have hc : isBlank c = true := by
      simpa using Text.head_dropWhile (q := (!isBlank ·)) body c (by rw [htail]; rfl)
    have hword : ∀ a ∈ body.takeWhile (!isBlank ·), isBlank a = false := by
      intro a ha
      simpa using List.mem_takeWhile_imp ha
    have hsplit : inside.rest = body.takeWhile (!isBlank ·) ++ c :: t := by
      rw [hbody, ← htail, List.takeWhile_append_dropWhile]
    have hfound : (inside.advance (body.takeWhile (!isBlank ·)).length).skipBlanks.2.rest =
        (c :: t).dropWhile isBlank := by
      rw [Reader.rest_skipBlanks, Reader.rest_advance_of_append hsplit rfl]
    rw [Reader.takeUntilChar_of_append hsplit hword hc, Reader.fst_takeThrough_singleton, hfound]
    by_cases hsign : '=' ∈ c :: t
    · rw [if_pos hsign, if_pos (Text.sign_mem_dropWhile_iff.2 hsign)]
      rfl
    · rw [if_neg hsign, if_neg (mt Text.sign_mem_dropWhile_iff.1 hsign)]
      rfl

end Delimiters

/-- The grammar of directives: a content sets a pair exactly if it splits into blanks, a word,
blanks, a closing sequence with a character that is not blank, a sign, and the rest. There is at
most one such splitting; it gives the pair, and a reader of its own comes to the same pair. A tag
with any other content is reported as a missing end. -/
theorem ofDirective?_eq_some_iff_exists_parts (content : Text) :
    Delimiters.readDirective? content = Delimiters.ofDirective? content ∧
    (∀ pair, Delimiters.ofDirective? content = some pair ↔
      ∃ p : DirectiveParts, p.WellFormed ∧ p.text = content ∧ p.pair = pair) ∧
    (∀ p q : DirectiveParts, p.WellFormed → q.WellFormed → p.text = content → q.text = content →
      p = q) ∧
    ((¬ ∃ p : DirectiveParts, p.WellFormed ∧ p.text = content) →
      Delimiters.ofDirective? content = none ∧
      ∀ (s : Lexer) (padding unread : Text), (∀ c ∈ padding, isBlank c = true) →
        FirstAfter s.delimiters.closing content →
        s.reader.rest = s.delimiters.opening ++
          (padding ++ '=' :: content ++ s.delimiters.closing) ++ unread →
        ∃ failure, s.step = .error failure ∧ failure.defect = .badDirective ∧
          failure.defect.message = "missing closing delimiter".toList) := by
  refine ⟨Delimiters.readDirective?_eq_ofDirective? content,
    fun pair => Delimiters.ofDirective?_eq_some_iff, ?_, ?_⟩
  · rintro p q hp hq rfl htext
    exact hp.eq_of_text_eq hq htext.symm
  · intro hno
    have hnone : Delimiters.ofDirective? content = none := by
      rw [Option.eq_none_iff_forall_ne_some]
      intro pair hpair
      obtain ⟨p, hp, htext, -⟩ := Delimiters.ofDirective?_eq_some_iff.1 hpair
      exact hno ⟨p, hp, htext⟩
    refine ⟨hnone, fun s padding unread hpadding hcontent hrest => ?_⟩
    have hdefect : s.Defective .badDirective
        (padding ++ '=' :: content ++ s.delimiters.closing) unread :=
      ⟨hrest, .badDirective hpadding hcontent hnone⟩
    exact ⟨_, hdefect.step, rfl, rfl⟩

/-- A directive whose new opening sequence holds the sign, with its closing sequence written apart,
has no other parts; one whose closing sequence is blank is a tag without an end. -/
theorem ofDirective?_parts_of_sign :
    Delimiters.ofDirective? "\t=( \n) ) = x=".toList = some ⟨"=(".toList, "))".toList⟩ ∧
      (∀ q : DirectiveParts, q.WellFormed → q.text = "\t=( \n) ) = x=".toList →
        q = ⟨"\t".toList, "=(".toList, " \n".toList, ") ) ".toList, " x=".toList⟩) ∧
      ∃ failure, (Lexer.start .braces
          (.ofText "\x7b\x7b=<% \t=\x7d\x7d".toList)).step = .error failure ∧
        failure.defect = .badDirective ∧
        failure.defect.message = "missing closing delimiter".toList := by
  obtain ⟨-, hpair, hunique, -⟩ :=
    ofDirective?_eq_some_iff_exists_parts "\t=( \n) ) = x=".toList
  have hparts : DirectiveParts.WellFormed
      ⟨"\t".toList, "=(".toList, " \n".toList, ") ) ".toList, " x=".toList⟩ :=
    { before := List.all_eq_true.1 (by decide)
      opening_ne_nil := by decide
      opening := (Delimiters.isMark_iff.1 (by decide)).2
      between_ne_nil := by decide
      between := List.all_eq_true.1 (by decide)
      sign := by decide
      closing_head := by
        rintro c ⟨⟩
        rfl
      closing := ⟨')', by decide, rfl⟩ }
  refine ⟨(hpair _).2 ⟨_, hparts, by decide, by decide⟩,
    fun q hq htext => hunique q _ hq hparts htext (by decide), ?_⟩
  obtain ⟨-, hpair, -, hfail⟩ := ofDirective?_eq_some_iff_exists_parts "<% \t=".toList
  have hno : ¬ ∃ p : DirectiveParts, p.WellFormed ∧ p.text = "<% \t=".toList := by
    rintro ⟨p, hp, htext⟩
    have hsome := (hpair p.pair).2 ⟨p, hp, htext, rfl⟩
    have hnone : Delimiters.ofDirective? "<% \t=".toList = none := by decide
    cases hnone.symm.trans hsome
  exact (hfail hno).2 (Lexer.start .braces (.ofText "\x7b\x7b=<% \t=\x7d\x7d".toList)) [] []
    (by simp) (by decide) (by decide)

end Mustache
