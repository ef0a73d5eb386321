import Mustache.Proofs.Joining
import Mustache.Proofs.Reached
import Mustache.Proofs.Sessions

/-! The part of a template that a run has gone over. At every state that a run reaches, what it has
consumed is a cut of its own, and the pair in effect is the pair at the end of that cut: a state in
front of an opening sequence is where the next tag of the template is. -/
namespace Mustache

section Blanks

variable {p b u : Text}

/-- Blanks in front of a text do not complete a sequence that bounds tags. -/
lemma firstAfter_blanks_append (hp : Delimiters.isMark p = true)
    (hb : ∀ c ∈ b, isBlank c = true) (hu : FirstAfter p u) : FirstAfter p (b ++ u) := by
  induction b with
  | nil => exact hu
  | cons c b ih =>
    exact (ih fun a ha => hb a (by simp [ha])).cons (ne_nil_of_isMark hp)
      (notMem_of_isMark hp (hb c (by simp)))

lemma not_infix_blanks_append (hp : Delimiters.isMark p = true)
    (hb : ∀ c ∈ b, isBlank c = true) (hu : ¬ p <:+: u) : ¬ p <:+: b ++ u := by
  induction b with
  | nil => exact hu
  | cons c b ih =>
    have hc : c ∉ p := notMem_of_isMark hp (hb c (by simp))
    rw [List.cons_append, ← List.nil_append (c :: (b ++ u)), infix_append_cons_iff hc,
      List.infix_nil, not_or]
    exact ⟨ne_nil_of_isMark hp, ih fun a ha => hb a (by simp [ha])⟩

lemma Text.isBlank_of_mem_lineTail? {t w : Text} (h : lineTail? t = some w) :
    ∀ c ∈ w, isBlank c = true := by
  have hend : Breaks (t.dropWhile isLineBlank) :=
    atLineEnd_iff_breaks.1 (isSome_lineTail?_iff.1 (Option.isSome_of_eq_some h))
  rw [lineTail?_of_breaks hend, Option.some.injEq] at h
  subst h
  intro c hc
  rcases List.mem_append.1 hc with hc | hc
  · exact isBlank_of_isLineBlank (List.mem_takeWhile_imp hc)
  · rcases hend with hnil | ⟨q, hq⟩
    · simp [hnil] at hc
    · rw [hq, List.take_succ_cons, List.take_zero, List.mem_singleton] at hc
      rw [hc]
      rfl

end Blanks

/-- Text is read up to the pattern, or to the end of a source that does not hold it. -/
lemma Reader.takeUntilOrEnd_cases (r : Reader) (p : Text) :
    (FirstAfter p (r.takeUntilOrEnd p).1 ∧ (r.takeUntilOrEnd p).2.startsWith p = true) ∨
      ¬ p <:+: (r.takeUntilOrEnd p).1 ∧ (r.takeUntilOrEnd p).2.rest = [] := by
  by_cases hin : p <:+: r.rest
  · obtain ⟨n, hn⟩ := Option.ne_none_iff_exists'.1 fun h => firstIndex?_eq_none_iff.1 h hin
    obtain ⟨u, w, hrest, -, hu⟩ := exists_of_firstIndex?_eq_some hn
    have hfound : (r.advance u.length).rest = p ++ w :=
      rest_advance_of_append (by rw [hrest, List.append_assoc]) rfl
    rw [Lexer.takeUntilOrEnd_of_firstAfter hrest hu]
    refine .inl ⟨hu, ?_⟩
    rw [startsWith, hfound, List.isPrefixOf_iff_prefix]
    exact List.prefix_append _ _
  · rw [Lexer.takeUntilOrEnd_of_not_infix hin]
    exact .inr ⟨hin, by simp [rest_advance]⟩

namespace Cut

variable {d : Delimiters} {a : Cut}

lemma lastGap_join_last (a : Cut) (t : Text) : (a.join (.last t)).lastGap = a.lastGap ++ t := by
  induction a with
  | last gap => rfl
  | tag gap s later ih => exact ih

lemma lastGap_join_tag (a : Cut) (gap : Text) (s : Spelling) (later : Cut) :
    (a.join (.tag gap s later)).lastGap = later.lastGap := by
  induction a with
  | last gap' => rfl
  | tag gap' s' later' ih => exact ih

/-- A cut goes on with text as long as no tag opens in its last gap. -/
lemma WellFormed.join_last (ha : a.WellFormed d) {t : Text}
    (ht : ¬ (a.delimiters d).opening <:+: a.lastGap ++ t) : (a.join (.last t)).WellFormed d := by
  induction a generalizing d with
  | last gap => exact ht
  | tag gap s later ih => exact ⟨ha.1, ha.2.1, ih ha.2.2 ht⟩

/-- A cut goes on with a tag where its opening sequence comes first. -/
lemma WellFormed.join_tag (ha : a.WellFormed d)
    (hfirst : FirstAfter (a.delimiters d).opening a.lastGap) {s : Spelling}
    (hs : s.WellFormed (a.delimiters d)) {later : Cut}
    (hlater : later.WellFormed (s.next (a.delimiters d))) :
    (a.join (.tag [] s later)).WellFormed d := by
  induction a generalizing d with
  | last gap =>
    refine ⟨?_, hs, hlater⟩
    rw [List.append_nil]
    exact hfirst
  | tag gap s' later' ih => exact ⟨ha.1, ha.2.1, ih ha.2.2 hfirst hs hlater⟩

end Cut

namespace Lexer

variable {d : Delimiters} {s : Lexer} {cut : Cut}

/-- A run has gone over a cut. Behind the last tag there are blanks that went away with it, and
after them the text that was read, which is followed by a tag or by nothing. -/
structure Follows (d : Delimiters) (s : Lexer) (cut : Cut) : Prop where
  wellFormed : cut.WellFormed d
  consumed : s.reader.consumed = (cut.text d).reverse
  delimiters : s.delimiters = cut.delimiters d
  gap : (∀ c ∈ cut.lastGap, isBlank c = true) ∨
    FirstAfter s.delimiters.opening cut.lastGap ∧
      s.reader.startsWith s.delimiters.opening = true ∨
    s.reader.rest = []

lemma follows_start (hd : d.Valid) (source : Text) :
    (start d (.ofText source)).Follows d (.last []) where
  wellFormed := Cut.wellFormed_empty hd
  consumed := rfl
  delimiters := rfl
  gap := .inl (by simp [Cut.lastGap])

/-- In front of an opening sequence, the cut can go on with a tag. -/
lemma Follows.firstAfter (h : s.Follows d cut) (hd : s.delimiters.Valid)
    (hopen : s.reader.startsWith s.delimiters.opening = true) :
    FirstAfter s.delimiters.opening cut.lastGap := by
  rcases h.gap with hblank | ⟨hfirst, -⟩ | hend
  · exact firstAfter_of_blanks hd.1 hblank
  · exact hfirst
  · rw [Reader.startsWith, hend, List.isPrefixOf_iff_prefix, List.prefix_nil] at hopen
    exact absurd hopen (ne_nil_of_isMark hd.1)

/-- The run goes on with the text up to the next tag. -/
lemma Follows.readText (h : s.Follows d cut) (hd : s.delimiters.Valid)
    (hend : s.reader.atEnd = false)
    (hopen : s.reader.startsWith s.delimiters.opening = false) :
    ∃ t, s.readText.Follows d (cut.join (.last t)) := by
  have hblank : ∀ c ∈ cut.lastGap, isBlank c = true := by
    rcases h.gap with hblank | ⟨-, hopen'⟩ | hnil
    · exact hblank
    · rw [hopen] at hopen'
      cases hopen'
    · rw [Reader.atEnd, hnil] at hend
      cases hend
  have hpasses := s.reader.passes_takeUntilOrEnd s.delimiters.opening
  have hcases := s.reader.takeUntilOrEnd_cases s.delimiters.opening
  have hno : ¬ s.delimiters.opening <:+: (s.reader.takeUntilOrEnd s.delimiters.opening).1 := by
    rcases hcases with ⟨hfirst, -⟩ | ⟨hno, -⟩
    · exact hfirst.not_infix (ne_nil_of_isMark hd.1)
    · exact hno
  refine ⟨(s.reader.takeUntilOrEnd s.delimiters.opening).1, ?_, ?_, ?_, ?_⟩
  · apply h.wellFormed.join_last
    rw [← h.delimiters]
    exact not_infix_blanks_append hd.1 hblank hno
  · rw [Cut.text_join, List.reverse_append, ← h.consumed]
    exact hpasses.consumed
  · rw [Cut.delimiters_join]
    exact h.delimiters
  · rw [Cut.lastGap_join_last]
    rcases hcases with ⟨hfirst, hstart⟩ | ⟨-, hnil⟩
    · exact .inr (.inl ⟨firstAfter_blanks_append hd.1 hblank hfirst, hstart⟩)
    · exact .inr (.inr hnil)

/-- Behind a tag, only blanks are passed over. -/
lemma exists_passes_blanks (token : Token) (before after : Reader) :
    ∃ w, (∀ c ∈ w, isBlank c = true) ∧
      after.Passes w (after.skip ((lineTail? token before after).getD [])) := by
  cases htail : lineTail? token before after with
  | none => exact ⟨[], by simp, after.passes_nil⟩
  | some w =>
    have hafter := lineTail?_of_eq_some htail
    exact ⟨w, Text.isBlank_of_mem_lineTail? hafter, Reader.passes_skip_lineTail? hafter⟩

/-- The run goes on with the tag that comes next. -/
lemma Follows.addTag (h : s.Follows d cut) (hd : s.delimiters.Valid) {sp : Spelling}
    {after : Text} (hsp : sp.WellFormed s.delimiters)
    (hrest : s.reader.rest = sp.text s.delimiters ++ after)
    (hopen : s.reader.startsWith s.delimiters.opening = true) :
    ∃ w, (s.addTag (sp.token s.reader.consumed)
      (s.reader.advance (sp.text s.delimiters).length)).Follows d
        (cut.join (.tag [] sp (.last w))) := by
  obtain ⟨w, hw, hskip⟩ := exists_passes_blanks (sp.token s.reader.consumed) s.reader
    (s.reader.advance (sp.text s.delimiters).length)
  have htag : s.reader.Passes (sp.text s.delimiters)
      (s.reader.advance (sp.text s.delimiters).length) := ⟨⟨after, hrest.symm⟩, rfl⟩
  have hfirst := h.firstAfter hd hopen
  have hnext := hsp.valid_next hd
  have hpast := firstAfter_of_blanks hnext.1 hw
  have hblank : ¬ (sp.next s.delimiters).opening <:+: w :=
    hpast.not_infix (ne_nil_of_isMark hnext.1)
  rw [h.delimiters] at hfirst hsp hblank
  refine ⟨w, h.wellFormed.join_tag hfirst hsp hblank, ?_, ?_, ?_⟩
  · rw [Cut.text_join, ← h.delimiters, List.reverse_append, ← h.consumed]
    exact (htag.append hskip).consumed
  · rw [Cut.delimiters_join, ← h.delimiters]
    exact (h.delimiters ▸ hsp).delimitersAfter_token _
  · rw [Cut.lastGap_join_tag]
    exact .inl hw

/-- Every state that a run reaches lies at the end of a cut. -/
theorem exists_follows_of_reaches (hd : d.Valid) {source : Text}
    (h : (start d (.ofText source)).Reaches s) : ∃ cut, s.Follows d cut := by
  induction h with
  | refl => exact ⟨_, follows_start hd source⟩
  | @tail s next hreach hgo ih =>
    obtain ⟨cut, hcut⟩ := ih
    have hstart : (start d (.ofText source)).Runs source := ⟨Reader.at_ofText source, hd⟩
    have hvalid := (hstart.reaches hreach).valid
    obtain ⟨hend, hnext⟩ := hgo
    rcases s.step_cases with
      ⟨hopen, hstep⟩ | ⟨sp, after, hsp, hrest, hstep⟩ | ⟨defect, read, unread, hdefect⟩
    · obtain rfl := Except.ok.inj (hstep.symm.trans hnext)
      obtain ⟨t, ht⟩ := hcut.readText hvalid hend hopen
      exact ⟨_, ht⟩
    · obtain rfl := Except.ok.inj (hstep.symm.trans hnext)
      have hopen : s.reader.startsWith s.delimiters.opening = true := by
        rw [Reader.startsWith, List.isPrefixOf_iff_prefix, hrest]
        exact (sp.opening_prefix_text _).trans (List.prefix_append _ _)
      obtain ⟨w, hw⟩ := hcut.addTag hvalid hsp hrest hopen
      exact ⟨_, hw⟩
    · cases hdefect.step.symm.trans hnext

end Lexer
end Mustache
