import Mathlib.Logic.Relation
import Mustache.Proofs.Grammar
import Mustache.Proofs.Place

/-! The states that a run goes through. A step either goes over text, or reads the well-formed tag
that comes next, or fails at a tag with a defect; so a run fails exactly if it comes to such a tag,
and the place of the failure can be counted over the part of the template that was read. -/
namespace Mustache

namespace Lexer

variable {s t next : Lexer}

/-- One step of a run that is not at the end of its template. -/
def Goes (s next : Lexer) : Prop := s.reader.atEnd = false ∧ s.step = .ok next

/-- A run that is in one state comes to be in another. -/
def Reaches : Lexer → Lexer → Prop := Relation.ReflTransGen Goes

lemma Reaches.run_eq (h : s.Reaches t) : s.run = t.run := by
  induction h with
  | refl => rfl
  | tail _ hgo ih => rw [ih, run_of_step_eq_ok hgo.1 hgo.2]

lemma exists_reaches_of_run_eq_error {failure : Failure} (h : s.run.result = .error failure) :
    ∃ t, s.Reaches t ∧ t.reader.atEnd = false ∧ t.step = .error failure := by
  fun_induction run s with
  | case1 s hend => cases h
  | case2 s hend next hstep ih =>
    obtain ⟨t, hreach, ht⟩ := ih h
    exact ⟨t, .head ⟨by simpa using hend, hstep⟩ hreach, ht⟩
  | case3 s hend failure' hstep =>
    cases h
    exact ⟨s, .refl, by simpa using hend, hstep⟩

lemma goes_rightUnique : Relator.RightUnique Goes := by
  intro s t u ht hu
  exact Except.ok.inj (ht.2.symm.trans hu.2)

/-- The tag whose opening sequence comes next has a defect, which is noticed once `read` is read
behind that sequence and `unread` is left. -/
structure Defective (s : Lexer) (defect : Defect) (read unread : Text) : Prop where
  rest : s.reader.rest = s.delimiters.opening ++ read ++ unread
  broken : Broken s.delimiters defect read unread

lemma Defective.startsWith {defect : Defect} {read unread : Text}
    (h : s.Defective defect read unread) : s.reader.startsWith s.delimiters.opening = true := by
  rw [Reader.startsWith, List.isPrefixOf_iff_prefix, h.rest, List.append_assoc]
  exact List.prefix_append _ _

lemma Defective.step {defect : Defect} {read unread : Text} (h : s.Defective defect read unread) :
    s.step =
      .error ⟨(s.reader.advance (s.delimiters.opening ++ read).length).position, defect⟩ := by
  rw [Lexer.step, if_pos h.startsWith]
  exact readTag_of_broken h.broken h.rest

/-- What a step can do. -/
theorem step_cases (s : Lexer) :
    (s.reader.startsWith s.delimiters.opening = false ∧ s.step = .ok s.readText) ∨
      (∃ sp after, Spelling.WellFormed s.delimiters sp ∧
        s.reader.rest = sp.text s.delimiters ++ after ∧
        s.step = .ok (s.addTag (sp.token s.reader.consumed)
          (s.reader.advance (sp.text s.delimiters).length))) ∨
      ∃ defect read unread, s.Defective defect read unread := by
  by_cases hopen : s.reader.startsWith s.delimiters.opening = true
  · right
    obtain ⟨inside, hinside⟩ := List.isPrefixOf_iff_prefix.1 hopen
    rcases exists_spelling_or_broken s.delimiters inside with
      ⟨sp, after, hsp, htext⟩ | ⟨defect, read, unread, hbroken, rfl⟩
    · have hrest : s.reader.rest = sp.text s.delimiters ++ after := hinside.symm.trans htext
      refine .inl ⟨sp, after, hsp, hrest, ?_⟩
      rw [step, if_pos hopen]
      exact readTag_of_spelling hsp hrest
    · exact .inr ⟨defect, read, unread, by rw [← hinside, List.append_assoc], hbroken⟩
  · exact .inl ⟨by simpa using hopen, by rw [step, if_neg hopen]; rfl⟩

/-- What a step that does not fail has done. -/
lemma eq_of_step_eq_ok (h : s.step = .ok next) :
    (s.reader.startsWith s.delimiters.opening = false ∧ next = s.readText) ∨
      ∃ sp after, Spelling.WellFormed s.delimiters sp ∧
        s.reader.rest = sp.text s.delimiters ++ after ∧
        next = s.addTag (sp.token s.reader.consumed)
          (s.reader.advance (sp.text s.delimiters).length) := by
  rcases s.step_cases with
    ⟨hopen, hstep⟩ | ⟨sp, after, hsp, hrest, hstep⟩ | ⟨defect, read, unread, hdefect⟩
  · exact .inl ⟨hopen, Except.ok.inj (h.symm.trans hstep)⟩
  · exact .inr ⟨sp, after, hsp, hrest, Except.ok.inj (h.symm.trans hstep)⟩
  · cases hdefect.step.symm.trans h

lemma step_eq_error_iff {failure : Failure} :
    s.step = .error failure ↔ ∃ read unread, s.Defective failure.defect read unread ∧
      failure.position =
        (s.reader.advance (s.delimiters.opening ++ read).length).position := by
  constructor
  · intro h
    rcases s.step_cases with ⟨-, hstep⟩ | ⟨sp, after, -, -, hstep⟩ | ⟨defect, read, unread, hdefect⟩
    · rw [hstep] at h
      cases h
    · rw [hstep] at h
      cases h
    · obtain rfl := Except.error.inj (hdefect.step.symm.trans h)
      exact ⟨read, unread, hdefect, rfl⟩
  · rintro ⟨read, unread, hdefect, hposition⟩
    rw [hdefect.step, ← hposition]

lemma exists_advance_readText (s : Lexer) : ∃ n, s.readText.reader = s.reader.advance n := by
  cases hfind : firstIndex? s.delimiters.opening s.reader.rest with
  | none =>
    refine ⟨s.reader.rest.length, ?_⟩
    simp [readText, Reader.takeUntilOrEnd, hfind, Reader.toEnd]
  | some n =>
    refine ⟨n, ?_⟩
    simp [readText, Reader.takeUntilOrEnd, hfind]

/-- A run over a template: it is at a place of the template, under a pair that can bound tags. -/
structure Runs (source : Text) (s : Lexer) : Prop where
  place : s.reader.At source
  valid : s.delimiters.Valid

/-- A step moves forward over what is left to read. -/
lemma Goes.exists_advance (h : s.Goes next) : ∃ n, next.reader = s.reader.advance n := by
  rcases eq_of_step_eq_ok h.2 with ⟨-, rfl⟩ | ⟨sp, after, -, -, rfl⟩
  · exact s.exists_advance_readText
  · exact ⟨_, Reader.advance_advance _ _ _⟩

lemma Reaches.at_source {source : Text} (h : s.Reaches t) (hs : s.reader.At source) :
    t.reader.At source := by
  induction h with
  | refl => exact hs
  | tail _ hgo ih =>
    obtain ⟨n, hn⟩ := hgo.exists_advance
    exact hn ▸ ih.advance n

lemma Runs.goes {source : Text} (h : s.Runs source) (hgo : s.Goes next) : next.Runs source := by
  refine ⟨Reaches.at_source (.single hgo) h.place, ?_⟩
  rcases eq_of_step_eq_ok hgo.2 with ⟨-, rfl⟩ | ⟨sp, after, hsp, -, rfl⟩
  · exact h.valid
  · rw [addTag, hsp.delimitersAfter_token]
    exact hsp.valid_next h.valid

lemma Runs.reaches {source : Text} (h : s.Runs source) (hreach : s.Reaches t) :
    t.Runs source := by
  induction hreach with
  | refl => exact h
  | tail _ hgo ih => exact ih.goes hgo

section Defects

variable {defect : Defect} {read unread source : Text}

lemma Defective.atEnd (h : s.Defective defect read unread) (hd : s.delimiters.Valid) :
    s.reader.atEnd = false := by
  rw [Reader.atEnd, h.rest]
  simp [ne_nil_of_isMark hd.1]

/-- The template around a tag with a defect. -/
lemma Defective.source_eq (h : s.Defective defect read unread) (hs : s.reader.At source) :
    source = s.reader.consumed.reverse ++ s.delimiters.opening ++ read ++ unread := by
  rw [← (Reader.at_iff.1 hs).1, Reader.source, h.rest]
  simp only [List.append_assoc]

lemma Defective.position (h : s.Defective defect read unread) (hs : s.reader.At source) :
    (s.reader.advance (s.delimiters.opening ++ read).length).position =
      .ofText (s.reader.consumed.reverse ++ s.delimiters.opening ++ read) := by
  rw [(hs.advance _).position, Reader.consumed_advance_of_append h.rest rfl, List.reverse_append,
    List.reverse_reverse, List.append_assoc]

/-- Nothing is reached behind a tag with a defect. -/
lemma Defective.eq_of_reaches (h : s.Defective defect read unread) (hreach : s.Reaches t) :
    s = t := by
  rcases Relation.ReflTransGen.cases_head hreach with rfl | ⟨next, ⟨-, hstep⟩, -⟩
  · rfl
  · cases h.step.symm.trans hstep

end Defects

end Lexer

/-- Failures are exact: a template fails if and only if its run comes to an opening sequence whose
tag has a defect, and the failure tells that defect and the place where it was noticed, counted
over what was read up to there. Every state of the run lies before that tag, so the first tag with
a defect decides. In terms of the template alone, it can be cut up to that tag. -/
theorem tokenize_eq_error_iff_reaches_defective {d : Delimiters} (hd : d.Valid) (source : Text) :
    (∀ failure, tokenize d source = .error failure ↔ ∃ s read unread,
      (Lexer.start d (.ofText source)).Reaches s ∧
      s.Defective failure.defect read unread ∧
      source = s.reader.consumed.reverse ++ s.delimiters.opening ++ read ++ unread ∧
      failure.position =
        .ofText (s.reader.consumed.reverse ++ s.delimiters.opening ++ read)) ∧
    (∀ s defect read unread, (Lexer.start d (.ofText source)).Reaches s →
      s.Defective defect read unread →
      ∀ t, (Lexer.start d (.ofText source)).Reaches t → t.Reaches s) ∧
    ∀ failure, tokenize d source = .error failure ↔
      ∃ (cut : Cut) (read unread : Text), cut.WellFormed d ∧
        FirstAfter (cut.delimiters d).opening cut.lastGap ∧
        Broken (cut.delimiters d) failure.defect read unread ∧
        source = cut.text d ++ ((cut.delimiters d).opening ++ read ++ unread) ∧
        failure.position = .ofText (cut.text d ++ ((cut.delimiters d).opening ++ read)) := by
  have hstart : (Lexer.start d (.ofText source)).Runs source := ⟨Reader.at_ofText source, hd⟩
  refine ⟨fun failure => ⟨fun h => ?_, ?_⟩, ?_, tokenize_eq_error_iff_exists_cut hd source⟩
  · obtain ⟨s, hreach, -, hstep⟩ := Lexer.exists_reaches_of_run_eq_error h
    obtain ⟨read, unread, hdefect, hposition⟩ := Lexer.step_eq_error_iff.1 hstep
    have hplace := (hstart.reaches hreach).place
    exact ⟨s, read, unread, hreach, hdefect, hdefect.source_eq hplace,
      hposition.trans (hdefect.position hplace)⟩
  · rintro ⟨s, read, unread, hreach, hdefect, -, hposition⟩
    have hruns := hstart.reaches hreach
    rw [← hdefect.position hruns.place] at hposition
    have hstep := Lexer.step_eq_error_iff.2 ⟨read, unread, hdefect, hposition⟩
    have hrun := hreach.run_eq.trans
      (Lexer.run_of_step_eq_error (hdefect.atEnd hruns.valid) hstep)
    exact congrArg Lexer.Outcome.result hrun
  · intro s defect read unread hs hdefect t ht
    rcases Relation.ReflTransGen.total_of_right_unique Lexer.goes_rightUnique hs ht with h | h
    · rw [hdefect.eq_of_reaches h]
      exact .refl
    · exact h

/-- Behind a directive, a tag of the new pair lacks its second brace. -/
theorem tokenize_eq_error_behind_directive :
    tokenize .braces "\x7b\x7b=< >=\x7d\x7d<\x7bb>".toList =
      .error ⟨⟨1, 14⟩, .missingBrace⟩ := by
  refine ((tokenize_eq_error_iff_reaches_defective Delimiters.valid_braces _).1 _).2
    ⟨⟨⟨"\x7d\x7d=> <=\x7b\x7b".toList, "<\x7bb>".toList, ⟨1, 10⟩⟩, ⟨['<'], ['>']⟩,
        [.setDelimiters ⟨['<'], ['>']⟩],
        [.tag .start .setDelimiters false, .changed .start .braces ⟨['<'], ['>']⟩]⟩,
      "\x7bb>".toList, [], .single ⟨by decide, by decide +kernel⟩, ⟨by decide, ?_⟩, ?_, ?_⟩
  · exact @Broken.missingBrace _ [] ['b'] [] (by simp) (by decide) (by decide)
  · decide
  · decide

end Mustache
