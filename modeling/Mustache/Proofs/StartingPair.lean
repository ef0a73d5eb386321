import Mustache.Proofs.CanonicalTag
import Mustache.Proofs.Joining

/-! Ways to choose the delimiters. A pair can be given as two words, or by a directive on the first
line of a template; both give the pair that was meant, and behind the directive the template is
read as under the pair from the start. -/
namespace Mustache

namespace Text

lemma words_blanks_append {w : Text} (hw : ∀ c ∈ w, isBlank c = true) (t : Text) :
    words (w ++ t) = words t := by
  induction w with
  | nil => rfl
  | cons c w ih =>
    have hc : isBlank c = true := hw c (by simp)
    have hwords : words (c :: (w ++ t)) = words (w ++ t) := by
      simp [words, wordsFrom, addWord, hc]
    rw [List.cons_append, hwords, ih fun a ha => hw a (by simp [ha])]

lemma words_eq_nil_of_blanks {w : Text} (hw : ∀ c ∈ w, isBlank c = true) : words w = [] := by
  have h := words_blanks_append hw []
  rwa [List.append_nil] at h

lemma wordsFrom_append {o : Text} (ho : ∀ c ∈ o, isBlank c = false) (word t : Text) :
    wordsFrom word (o ++ t) = wordsFrom (o.reverse ++ word) t := by
  induction o generalizing word with
  | nil => rfl
  | cons c o ih =>
    have hc : isBlank c = false := ho c (by simp)
    rw [List.cons_append, wordsFrom, if_neg (by simp [hc]), ih fun a ha => ho a (by simp [ha])]
    simp

/-- A word ends at the next blank or at the end of the text. -/
lemma words_mark_append {o u : Text} (ho : Delimiters.isMark o = true)
    (hu : ∀ c ∈ u.head?, isBlank c = true) : words (o ++ u) = o :: words u := by
  have hblank : ∀ c ∈ o, isBlank c = false := by
    intro c hc
    by_contra hb
    exact notMem_of_isMark ho (by simpa using hb) hc
  have hne : o ≠ [] := ne_nil_of_isMark ho
  rw [words, wordsFrom_append hblank, List.append_nil]
  cases u with
  | nil => simp [words, wordsFrom, addWord, hne]
  | cons c t =>
    have hc : isBlank c = true := hu c rfl
    simp [words, wordsFrom, addWord, hc, hne]

/-- A text is blank, or its first word stands behind blanks and in front of a blank. -/
lemma blanks_or_exists_word (t : Text) :
    (∀ c ∈ t, isBlank c = true) ∨ ∃ w o u, t = w ++ o ++ u ∧ (∀ c ∈ w, isBlank c = true) ∧
      Delimiters.isMark o = true ∧ ∀ c ∈ u.head?, isBlank c = true := by
  cases hbody : t.dropWhile isBlank with
  | nil => exact .inl (List.dropWhile_eq_nil_iff.1 hbody)
  | cons a tail =>
    have ha : isBlank a = false := by
      have h := List.head?_dropWhile_not isBlank t
      simpa [hbody] using h
    refine .inr ⟨t.takeWhile isBlank, (a :: tail).takeWhile (!isBlank ·),
      (a :: tail).dropWhile (!isBlank ·), ?_, fun c hc => List.mem_takeWhile_imp hc, ?_, ?_⟩
    · rw [List.append_assoc, List.takeWhile_append_dropWhile, ← hbody,
        List.takeWhile_append_dropWhile]
    · have hword : ∀ c ∈ (a :: tail).takeWhile (!isBlank ·), isBlank c = false := by
        intro c hc
        simpa using List.mem_takeWhile_imp hc
      simp only [Delimiters.isMark, Bool.and_eq_true, Bool.not_eq_true', List.any_eq_false]
      exact ⟨by simp [ha], fun c hc => by simp [hword c hc]⟩
    · intro c hc
      have h := List.head?_dropWhile_not (!isBlank ·) (a :: tail)
      simpa [Option.mem_def.1 hc] using h

lemma words_eq_nil_iff {t : Text} : words t = [] ↔ ∀ c ∈ t, isBlank c = true := by
  refine ⟨fun h => ?_, words_eq_nil_of_blanks⟩
  rcases blanks_or_exists_word t with hblank | ⟨w, o, u, rfl, hw, ho, hu⟩
  · exact hblank
  · rw [List.append_assoc, words_blanks_append hw, words_mark_append ho hu] at h
    cases h

lemma words_eq_cons_iff {t o : Text} {later : List Text} :
    words t = o :: later ↔ ∃ w u, t = w ++ o ++ u ∧ (∀ c ∈ w, isBlank c = true) ∧
      Delimiters.isMark o = true ∧ (∀ c ∈ u.head?, isBlank c = true) ∧ words u = later := by
  constructor
  · intro h
    rcases blanks_or_exists_word t with hblank | ⟨w, o', u, rfl, hw, ho, hu⟩
    · rw [words_eq_nil_of_blanks hblank] at h
      cases h
    · rw [List.append_assoc, words_blanks_append hw, words_mark_append ho hu, List.cons.injEq] at h
      obtain ⟨rfl, hlater⟩ := h
      exact ⟨w, u, rfl, hw, ho, hu, hlater⟩
  · rintro ⟨w, u, rfl, hw, ho, hu, rfl⟩
    rw [List.append_assoc, words_blanks_append hw, words_mark_append ho hu]

end Text

namespace Delimiters

/-- A text that consists of the two sequences of a pair, with blanks between them and none but
blanks around them. -/
def WrittenAs (d : Delimiters) (t : Text) : Prop :=
  ∃ before between behind, t = before ++ d.opening ++ between ++ d.closing ++ behind ∧
    between ≠ [] ∧ (∀ c ∈ before ++ between ++ behind, isBlank c = true) ∧ d.Valid

lemma ofWords?_eq_some_iff_words {t : Text} {d : Delimiters} :
    ofWords? t = some d ↔ Text.words t = [d.opening, d.closing] ∧ d.Valid := by
  unfold ofWords?
  split
  next opening closing hwords =>
    rw [ofPair?_eq_some_iff, hwords]
    constructor
    · rintro ⟨rfl, hd⟩
      exact ⟨rfl, hd⟩
    · rintro ⟨h, hd⟩
      simp only [List.cons.injEq, and_true] at h
      exact ⟨by rw [h.1, h.2], hd⟩
  next hwords =>
    constructor
    · intro h
      cases h
    · rintro ⟨h, -⟩
      exact absurd h (hwords _ _)

theorem ofWords?_eq_some_iff {t : Text} {d : Delimiters} :
    ofWords? t = some d ↔ d.WrittenAs t := by
  rw [ofWords?_eq_some_iff_words]
  constructor
  · rintro ⟨hwords, hd⟩
    obtain ⟨before, u, rfl, hbefore, -, hu, hlater⟩ := Text.words_eq_cons_iff.1 hwords
    obtain ⟨between, behind, rfl, hbetween, -, -, hnil⟩ := Text.words_eq_cons_iff.1 hlater
    refine ⟨before, between, behind, by simp only [List.append_assoc], ?_, ?_, hd⟩
    · -- The closing sequence does not begin with a blank, so it cannot be part of the first word.
      rintro rfl
      obtain ⟨c, tail, hclosing, hc⟩ := exists_cons_of_isMark hd.2
      rw [hu c (by simp [hclosing])] at hc
      cases hc
    · simp only [List.mem_append]
      rintro c ((hc | hc) | hc)
      · exact hbefore c hc
      · exact hbetween c hc
      · exact Text.words_eq_nil_iff.1 hnil c hc
  · rintro ⟨before, between, behind, rfl, hne, hblank, hd⟩
    have hbefore : ∀ c ∈ before, isBlank c = true := fun c hc => hblank c (by simp [hc])
    have hbetween : ∀ c ∈ between, isBlank c = true := fun c hc => hblank c (by simp [hc])
    have hbehind : ∀ c ∈ behind, isBlank c = true := fun c hc => hblank c (by simp [hc])
    refine ⟨Text.words_eq_cons_iff.2 ⟨before, between ++ d.closing ++ behind,
      by simp only [List.append_assoc], hbefore, hd.1, ?_, ?_⟩, hd⟩
    · cases between with
      | nil => exact absurd rfl hne
      | cons c tail =>
        intro a ha
        cases ha
        exact hbetween _ (by simp)
    · refine Text.words_eq_cons_iff.2 ⟨between, behind, rfl, hbetween, hd.2, ?_,
        Text.words_eq_nil_of_blanks hbehind⟩
      intro c hc
      exact hbehind c (List.mem_of_mem_head? hc)

lemma writtenAs_display {d : Delimiters} (hd : d.Valid) : d.WrittenAs d.display :=
  ⟨[], [' '], [], by simp [display], by simp, by simp [isBlank], hd⟩

/-- A line that changes the delimiters from braces to a pair. -/
def directiveLine (d : Delimiters) : Text :=
  braces.opening ++ '=' :: d.display ++ '=' :: braces.closing ++ ['\n']

end Delimiters

section Directive

open Delimiters

variable {d : Delimiters}

/-- The cut of a line that changes the delimiters. -/
def directiveCut (d : Delimiters) : Cut := .tag [] ⟨[], '=', d.display ++ ['=']⟩ (.last ['\n'])

lemma text_directiveCut (d : Delimiters) : (directiveCut d).text braces = d.directiveLine := by
  simp [directiveCut, Cut.text, Spelling.text, Spelling.brace, directiveLine]

lemma ofDirective?_directiveCut (hd : d.Valid) (hsign : '=' ∉ d.closing) :
    ofDirective? (d.display ++ ['=']) = some d := ofDirective?_display hd hsign []

lemma delimiters_directiveCut (hd : d.Valid) (hsign : '=' ∉ d.closing) :
    (directiveCut d).delimiters braces = d := by
  simp [directiveCut, Cut.delimiters, Spelling.next, ofDirective?_directiveCut hd hsign]

/-- Neither the space between the sequences nor the sign behind them lets the braces be found
early. -/
lemma wellFormed_directiveCut (hd : d.Valid) (hsign : '=' ∉ d.closing)
    (hopening : ¬ braces.closing <:+: d.opening) (hclosing : ¬ braces.closing <:+: d.closing) :
    (directiveCut d).WellFormed braces := by
  have hpair := ofDirective?_directiveCut hd hsign
  have hcontent : FirstAfter braces.closing (d.display ++ ['=']) := by
    rw [display, List.append_assoc, List.cons_append,
      firstAfter_append_cons_iff (by decide), firstAfter_append_cons_iff (by decide)]
    exact ⟨hopening, hclosing, firstAfter_nil _⟩
  have hlast : ¬ d.opening <:+: ['\n'] := by
    have hfirst : FirstAfter d.opening ['\n'] := firstAfter_of_blanks hd.1 (by simp [isBlank])
    exact hfirst.not_infix (ne_nil_of_isMark hd.1)
  refine ⟨firstAfter_nil _, ⟨by simp, rfl, hcontent, fun _ => by rw [hpair]; rfl⟩, ?_⟩
  rw [Spelling.next, if_pos rfl, hpair]
  exact hlast

/-- The line of the directive goes away with it. -/
lemma tokens_directiveCut (hd : d.Valid) (hsign : '=' ∉ d.closing) :
    (directiveCut d).tokens braces = [.setDelimiters d] := by
  have htoken : Spelling.token ⟨[], '=', d.display ++ ['=']⟩ [] = .setDelimiters d := by
    rw [Spelling.token_eq, Tag.token?_of_eq rfl, ofDirective?_directiveCut hd hsign]
    rfl
  have halone : StandsAlone (.setDelimiters d) [] ['\n'] := ⟨trivial, by decide, by decide⟩
  simp [directiveCut, Cut.tokens, Cut.tokensFrom, Cut.text, htoken, halone, Cut.kept,
    Cut.textTokens, Text.afterLine]

lemma endsLine_directiveLine (d : Delimiters) : Text.EndsLine d.directiveLine := .inr ⟨_, rfl⟩

lemma count_directiveLine (hd : d.Valid) : d.directiveLine.count '\n' = 1 := by
  have hopening : d.opening.count '\n' = 0 := List.count_eq_zero.2 (notMem_of_isMark hd.1 rfl)
  have hclosing : d.closing.count '\n' = 0 := List.count_eq_zero.2 (notMem_of_isMark hd.2 rfl)
  simp [directiveLine, display, braces, hopening, hclosing]

/-- Behind the line of a directive, a template is read as under its pair from the start. -/
lemma tokenize_directiveLine_append (hd : d.Valid) (hsign : '=' ∉ d.closing)
    (hopening : ¬ braces.closing <:+: d.opening) (hclosing : ¬ braces.closing <:+: d.closing)
    (source : Text) :
    tokenize braces (d.directiveLine ++ source) =
      match tokenize d source with
      | .ok tokens => .ok (.setDelimiters d :: tokens)
      | .error failure => .error (failure.behind d.directiveLine) := by
  have hcut := wellFormed_directiveCut hd hsign hopening hclosing
  have hpair := delimiters_directiveCut hd hsign
  have hend : Text.EndsLine ((directiveCut d).text braces) :=
    text_directiveCut d ▸ endsLine_directiveLine d
  rcases exists_cut hd source with
    ⟨cut, hsource, rfl⟩ | ⟨cut, defect, read, unread, hsource, hfirst, hbroken, rfl⟩
  · have hjoin := tokenize_join valid_braces hcut hend (hpair.symm ▸ hsource)
    rw [text_directiveCut, hpair, tokens_directiveCut hd hsign] at hjoin
    rw [hjoin, tokenize_of_cut hd hsource, joinTokens_cons rfl, joinTokens_nil]
  · have hjoin := tokenize_join_broken valid_braces hcut hend (hpair.symm ▸ hsource)
      (hpair.symm ▸ hfirst) (hpair.symm ▸ hbroken)
    rw [text_directiveCut, hpair] at hjoin
    rw [hjoin, tokenize_of_broken hd hsource hfirst hbroken]
    exact congrArg Except.error (Failure.behind_after (endsLine_directiveLine d) _ _).symm

end Directive

/-- The pair that a run starts with and the pair that a directive sets agree: behind a line with
the directive, a template has the tokens that it has under the pair from the start, or fails one
line further down. Two words give exactly the pair that they spell. -/
theorem startingPair_agrees_with_directive :
    (∀ d : Delimiters, d.Valid → '=' ∉ d.closing →
      ¬ Delimiters.braces.closing <:+: d.opening → ¬ Delimiters.braces.closing <:+: d.closing →
      ∀ source,
        (∀ tokens, tokenize d source = .ok tokens →
          tokenize .braces (d.directiveLine ++ source) = .ok (.setDelimiters d :: tokens)) ∧
        ∀ failure, tokenize d source = .error failure →
          tokenize .braces (d.directiveLine ++ source) =
            .error ⟨⟨min Position.limit (failure.position.line + 1), failure.position.column⟩,
              failure.defect⟩) ∧
    (∀ d : Delimiters, d.Valid → Delimiters.ofWords? d.display = some d) ∧
    ∀ (t : Text) (d : Delimiters), Delimiters.ofWords? t = some d ↔ d.WrittenAs t := by
  refine ⟨fun d hd hsign hopening hclosing source => ⟨?_, ?_⟩, ?_, fun t d => ?_⟩
  · intro tokens h
    rw [tokenize_directiveLine_append hd hsign hopening hclosing, h]
  · intro failure h
    rw [tokenize_directiveLine_append hd hsign hopening hclosing, h]
    simp only [Failure.behind, count_directiveLine hd]
  · intro d hd
    exact Delimiters.ofWords?_eq_some_iff.2 (Delimiters.writtenAs_display hd)
  · exact Delimiters.ofWords?_eq_some_iff

/-- A pair whose opening sequence begins with the sign of directives and ends with a brace. -/
theorem startingPair_agrees_at_sign :
    tokenize .braces ("\x7b\x7b==\x7d \x7d=\x7d\x7d\n".toList ++ "=\x7da\x7d".toList) =
        .ok [.setDelimiters ⟨['=', '\x7d'], ['\x7d']⟩, .escaped ['a']] ∧
      tokenize .braces ("\x7b\x7b==\x7d \x7d=\x7d\x7d\n".toList ++ "=\x7da".toList) =
        .error ⟨⟨2, 4⟩, .unclosed⟩ := by
  have h := startingPair_agrees_with_directive.1 ⟨['=', '\x7d'], ['\x7d']⟩ (by decide) (by decide)
    (by decide) (by decide)
  exact ⟨(h _).1 [.escaped ['a']] (by decide +kernel),
    (h _).2 ⟨⟨1, 4⟩, .unclosed⟩ (by decide +kernel)⟩

end Mustache
