import Mustache.Proofs.Reached

/-! Runs that start in the middle of a source. Such a run looks back over text that no token of its
own holds, but only up to the last line feed: behind two texts with the same last line, the same
text is read in the same steps. -/
namespace Mustache

/-- The place behind the first part of a source. -/
def Reader.behind (a b : Text) : Reader := (Reader.ofText (a ++ b)).advance a.length

/-- The tokens of a text that is read from behind another one. -/
def tokenizeBehind (d : Delimiters) (a b : Text) : Except Failure (List Token) :=
  (Lexer.start d (.behind a b)).run.result

namespace Text

variable {a a' : Text}

/-- What lies before the last line is empty or ends with a line feed. -/
lemma exists_append_lastLine (t : Text) : ∃ u, t = u ++ lastLine t ∧ EndsLine u := by
  refine ⟨t.rdropWhile (· != '\n'), List.rdropWhile_append_rtakeWhile.symm, ?_⟩
  rcases dropEndWhile_eq_nil_or_concat (· != '\n') t with hnil | ⟨u, c, hconcat, hc⟩
  · exact .inl hnil
  · refine .inr ⟨u, ?_⟩
    rw [show c = '\n' by simpa using hc] at hconcat
    exact hconcat

/-- Looking back sees no further than the last line. -/
lemma lineIndent?_reverse (t : Text) :
    lineIndent? t.reverse = lineIndent? (lastLine t).reverse := by
  obtain ⟨u, ht, hu⟩ := exists_append_lastLine t
  rcases hu with rfl | ⟨v, rfl⟩
  · rw [List.nil_append] at ht
    rw [← ht]
  · conv_lhs => rw [ht]
    rw [List.reverse_append, List.reverse_concat]
    exact lineIndent?_append_lineFeed _ _

lemma lineIndent?_reverse_congr (h : lastLine a = lastLine a') :
    lineIndent? a.reverse = lineIndent? a'.reverse := by
  rw [lineIndent?_reverse, h, ← lineIndent?_reverse]

lemma lastLine_append_congr (h : lastLine a = lastLine a') (t : Text) :
    lastLine (a ++ t) = lastLine (a' ++ t) := by
  induction t using List.reverseRecOn with
  | nil => rwa [List.append_nil, List.append_nil]
  | append_singleton t c ih =>
    rw [← List.append_assoc, ← List.append_assoc]
    by_cases hc : c = '\n'
    · rw [hc, lastLine_concat_lineFeed, lastLine_concat_lineFeed]
    · rw [lastLine_concat hc, lastLine_concat hc, ih]

lemma lastLine_of_endsLine (ha : EndsLine a) : lastLine a = lastLine [] := by
  rcases ha with rfl | ⟨u, rfl⟩
  · rfl
  · exact lastLine_concat_lineFeed u

end Text

namespace Reader

variable {a a' : Text} {r r' : Reader}

lemma rest_behind (a b : Text) : (behind a b).rest = b :=
  rest_advance_of_append (r := ofText (a ++ b)) rfl rfl

lemma consumed_behind (a b : Text) : (behind a b).consumed = a.reverse := by
  have h := consumed_advance_of_append (r := ofText (a ++ b)) rfl rfl
  rwa [show (ofText (a ++ b)).consumed = [] from rfl, List.append_nil] at h

lemma at_behind (a b : Text) : (behind a b).At (a ++ b) := (at_ofText _).advance _

/-- Two readers have read the same text from behind two texts, and have the same text to read. -/
structure Abreast (a a' : Text) (r r' : Reader) : Prop where
  rest : r.rest = r'.rest
  consumed : ∃ t : Text, r.consumed = t.reverse ++ a.reverse ∧ r'.consumed = t.reverse ++ a'.reverse

lemma abreast_behind (a a' b : Text) : (behind a b).Abreast a a' (behind a' b) where
  rest := by rw [rest_behind, rest_behind]
  consumed := ⟨[], consumed_behind a b, consumed_behind a' b⟩

lemma Abreast.advance (h : Abreast a a' r r') (n : Nat) :
    Abreast a a' (r.advance n) (r'.advance n) := by
  obtain ⟨t, ht, ht'⟩ := h.consumed
  refine ⟨by rw [rest_advance, rest_advance, h.rest], t ++ r.rest.take n, ?_, ?_⟩
  · rw [consumed_advance, ht, List.reverse_append, List.append_assoc]
  · rw [consumed_advance, ht', ← h.rest, List.reverse_append, List.append_assoc]

lemma Abreast.lineIndent? (h : Abreast a a' r r') (hline : Text.lastLine a = Text.lastLine a') :
    Text.lineIndent? r.consumed = Text.lineIndent? r'.consumed := by
  obtain ⟨t, ht, ht'⟩ := h.consumed
  rw [ht, ht']
  exact Text.lineIndent?_append_congr (Text.lineIndent?_reverse_congr hline) _

end Reader

namespace Lexer

variable {a a' : Text} {s s' next : Lexer}

/-- Two runs that have come to the same tokens and the same pair abreast of each other. -/
structure Abreast (a a' : Text) (s s' : Lexer) : Prop where
  reader : s.reader.Abreast a a' s'.reader
  delimiters : s.delimiters = s'.delimiters
  tokens : s.tokens = s'.tokens

lemma Abreast.readText (h : Abreast a a' s s') : Abreast a a' s.readText s'.readText := by
  have hrest := h.reader.rest
  cases hfind : firstIndex? s.delimiters.opening s.reader.rest with
  | none =>
    have hfind' := hfind
    rw [hrest, h.delimiters] at hfind'
    have hend := h.reader.advance s.reader.rest.length
    simp only [Lexer.readText, Reader.takeUntilOrEnd, hfind, hfind', Reader.toEnd]
    exact ⟨hrest ▸ hend, h.delimiters, by simp [hrest, h.tokens]⟩
  | some n =>
    have hfind' := hfind
    rw [hrest, h.delimiters] at hfind'
    simp only [Lexer.readText, Reader.takeUntilOrEnd, hfind, hfind']
    exact ⟨h.reader.advance n, h.delimiters, by simp [Reader.peek, hrest, h.tokens]⟩

lemma Abreast.addTag (h : Abreast a a' s s') (hline : Text.lastLine a = Text.lastLine a')
    (token : Token) (n : Nat) :
    Abreast a a' (s.addTag token (s.reader.advance n)) (s'.addTag token (s'.reader.advance n)) := by
  have hafter := h.reader.advance n
  have htail : Lexer.lineTail? token s.reader (s.reader.advance n) =
      Lexer.lineTail? token s'.reader (s'.reader.advance n) := by
    rw [Lexer.lineTail?, Lexer.lineTail?, Reader.lineIndent?, Reader.lineTail?,
      h.reader.lineIndent? hline, hafter.rest]
    rfl
  refine ⟨?_, ?_, ?_⟩
  · simp only [Lexer.addTag, htail, Reader.skip]
    exact hafter.advance _
  · simp only [Lexer.addTag, h.delimiters]
  · simp only [Lexer.addTag, htail, h.tokens]

lemma Abreast.defective (h : Abreast a a' s s') {defect : Defect} {read unread : Text}
    (hdefect : s.Defective defect read unread) : s'.Defective defect read unread :=
  ⟨by rw [← h.reader.rest, ← h.delimiters, hdefect.rest], h.delimiters ▸ hdefect.broken⟩

lemma Abreast.atEnd (h : Abreast a a' s s') : s.reader.atEnd = s'.reader.atEnd := by
  rw [Reader.atEnd, Reader.atEnd, h.reader.rest]

/-- A step of one run is a step of the other. -/
lemma Abreast.goes (h : Abreast a a' s s') (hline : Text.lastLine a = Text.lastLine a')
    (hgo : s.Goes next) : ∃ next', s'.Goes next' ∧ Abreast a a' next next' := by
  obtain ⟨hend, hnext⟩ := hgo
  rw [h.atEnd] at hend
  rcases eq_of_step_eq_ok hnext with ⟨hopen, rfl⟩ | ⟨sp, after, hsp, hrest, rfl⟩
  · refine ⟨s'.readText, ⟨hend, ?_⟩, h.readText⟩
    rw [Reader.startsWith, h.reader.rest, h.delimiters] at hopen
    rw [step, if_neg (by rw [Reader.startsWith, hopen]; simp)]
    rfl
  · have htoken : sp.token s.reader.consumed = sp.token s'.reader.consumed :=
      sp.token_congr (h.reader.lineIndent? hline)
    rw [htoken]
    refine ⟨_, ⟨hend, ?_⟩, h.addTag hline _ _⟩
    rw [h.reader.rest, h.delimiters] at hrest
    rw [h.delimiters] at hsp ⊢
    have hopen : s'.reader.startsWith s'.delimiters.opening = true := by
      rw [Reader.startsWith, List.isPrefixOf_iff_prefix, hrest]
      exact (sp.opening_prefix_text _).trans (List.prefix_append _ _)
    rw [step, if_pos hopen]
    exact readTag_of_spelling hsp hrest

lemma Abreast.reaches {t : Lexer} (h : Abreast a a' s s')
    (hline : Text.lastLine a = Text.lastLine a') (hreach : s.Reaches t) :
    ∃ t', s'.Reaches t' ∧ Abreast a a' t t' := by
  induction hreach with
  | refl => exact ⟨s', .refl, h⟩
  | tail _ hgo ih =>
    obtain ⟨t', hreach', ht⟩ := ih
    obtain ⟨next', hgo', hnext⟩ := ht.goes hline hgo
    exact ⟨next', .tail hreach' hgo', hnext⟩

/-- A run ends with tokens or comes to a tag that has a defect. -/
lemma exists_reaches_end_or_defective (s : Lexer) :
    ∃ t, s.Reaches t ∧ (t.reader.atEnd = true ∨
      t.reader.atEnd = false ∧ ∃ defect read unread, t.Defective defect read unread) := by
  fun_induction run s with
  | case1 s hend => exact ⟨s, .refl, .inl hend⟩
  | case2 s hend next hstep ih =>
    obtain ⟨t, hreach, ht⟩ := ih
    exact ⟨t, .head ⟨by simpa using hend, hstep⟩ hreach, ht⟩
  | case3 s hend failure hstep =>
    obtain ⟨read, unread, hdefect, -⟩ := step_eq_error_iff.1 hstep
    exact ⟨s, .refl, .inr ⟨by simpa using hend, failure.defect, read, unread, hdefect⟩⟩

end Lexer

/-- A run from behind a text gives up over a defect once `read` is read: it comes to a tag whose
defect is noticed there, and `unread` is left. -/
def GivesUp (d : Delimiters) (a read unread : Text) (defect : Defect) : Prop :=
  ∃ s inside, (Lexer.start d (.behind a (read ++ unread))).Reaches s ∧
    s.Defective defect inside unread ∧
    s.reader.consumed.reverse ++ s.delimiters.opening ++ inside = a ++ read

section Behind

variable {d : Delimiters} {a b : Text}

/-- Where a run from behind a text comes to a tag with a defect, it gives up there, and the place
is counted over both texts. -/
lemma tokenizeBehind_of_defective {s : Lexer} {defect : Defect} {inside unread t : Text}
    (hreach : (Lexer.start d (.behind a b)).Reaches s) (hend : s.reader.atEnd = false)
    (hdefect : s.Defective defect inside unread)
    (hconsumed : s.reader.consumed = t.reverse ++ a.reverse) :
    b = t ++ s.delimiters.opening ++ inside ++ unread ∧
      GivesUp d a (t ++ s.delimiters.opening ++ inside) unread defect ∧
      tokenizeBehind d a b =
        .error ⟨.ofText (a ++ (t ++ s.delimiters.opening ++ inside)), defect⟩ := by
  have hplace : s.reader.At (a ++ b) := hreach.at_source (Reader.at_behind a b)
  have hread : s.reader.consumed.reverse ++ s.delimiters.opening ++ inside =
      a ++ (t ++ s.delimiters.opening ++ inside) := by
    rw [hconsumed]
    simp
  have hb : b = t ++ s.delimiters.opening ++ inside ++ unread := by
    have hsource := hdefect.source_eq hplace
    rw [hread, List.append_assoc] at hsource
    exact List.append_cancel_left hsource
  refine ⟨hb, ⟨s, inside, hb ▸ hreach, hdefect, hread⟩, ?_⟩
  rw [tokenizeBehind, hreach.run_eq, Lexer.run_of_step_eq_error hend hdefect.step,
    hdefect.position hplace, hread]

lemma tokenizeBehind_of_atEnd {s : Lexer} (hreach : (Lexer.start d (.behind a b)).Reaches s)
    (hend : s.reader.atEnd = true) : tokenizeBehind d a b = .ok s.tokens.reverse := by
  rw [tokenizeBehind, hreach.run_eq, Lexer.run_of_atEnd hend]

end Behind

/-- Behind two texts with the same last line, a text has the same tokens, or both runs give up at
the same place of it over the same defect, in the same column. -/
lemma tokenizeBehind_cases (d : Delimiters) {a a' : Text}
    (hline : Text.lastLine a = Text.lastLine a') (b : Text) :
    (∃ tokens, tokenizeBehind d a b = .ok tokens ∧ tokenizeBehind d a' b = .ok tokens) ∨
      ∃ read unread defect, b = read ++ unread ∧
        GivesUp d a read unread defect ∧ GivesUp d a' read unread defect ∧
        tokenizeBehind d a b = .error ⟨.ofText (a ++ read), defect⟩ ∧
        tokenizeBehind d a' b = .error ⟨.ofText (a' ++ read), defect⟩ := by
  have hstart : Lexer.Abreast a a' (.start d (.behind a b)) (.start d (.behind a' b)) :=
    ⟨Reader.abreast_behind a a' b, rfl, rfl⟩
  obtain ⟨s, hreach, hs⟩ := Lexer.exists_reaches_end_or_defective (.start d (.behind a b))
  obtain ⟨s', hreach', habreast⟩ := hstart.reaches hline hreach
  rcases hs with hend | ⟨hend, defect, inside, unread, hdefect⟩
  · refine .inl ⟨s.tokens.reverse, tokenizeBehind_of_atEnd hreach hend, ?_⟩
    rw [habreast.tokens]
    exact tokenizeBehind_of_atEnd hreach' (habreast.atEnd ▸ hend)
  · obtain ⟨t, ht, ht'⟩ := habreast.reader.consumed
    obtain ⟨hb, hgives, hfails⟩ := tokenizeBehind_of_defective hreach hend hdefect ht
    obtain ⟨-, hgives', hfails'⟩ := tokenizeBehind_of_defective hreach' (habreast.atEnd ▸ hend)
      (habreast.defective hdefect) ht'
    rw [← habreast.delimiters] at hgives' hfails'
    exact .inr ⟨_, unread, defect, hb, hgives, hgives', hfails, hfails'⟩

/-- A run that starts in the middle of a source depends on what precedes it only through the last
line: behind two texts with the same last line it comes to the same tokens, or fails over the same
defect in the same column, on the line counted over what was consumed. Behind text that ends a
line, the tokens are those of a fresh start. -/
theorem tokenizeBehind_congr (d : Delimiters) {a a' : Text}
    (hline : Text.lastLine a = Text.lastLine a') (b : Text) :
    ((∃ tokens, tokenizeBehind d a b = .ok tokens ∧ tokenizeBehind d a' b = .ok tokens) ∨
      ∃ read unread f f', b = read ++ unread ∧
        tokenizeBehind d a b = .error f ∧ tokenizeBehind d a' b = .error f' ∧
        GivesUp d a read unread f.defect ∧ GivesUp d a' read unread f'.defect ∧
        f.defect = f'.defect ∧ f.position.column = f'.position.column ∧
        f.position.line = min Position.limit (1 + (a ++ read).count '\n') ∧
        f'.position.line = min Position.limit (1 + (a' ++ read).count '\n')) ∧
    (Text.EndsLine a →
      ∀ tokens, tokenizeBehind d a b = .ok tokens ↔ tokenize d b = .ok tokens) := by
  constructor
  · rcases tokenizeBehind_cases d hline b with
      hok | ⟨read, unread, defect, hb, hgives, hgives', hfails, hfails'⟩
    · exact .inl hok
    · refine .inr ⟨read, unread, _, _, hb, hfails, hfails', hgives, hgives', rfl, ?_, rfl, rfl⟩
      simp only [Position.ofText, Text.lastLine_append_congr hline]
  · intro ha tokens
    have hfresh : tokenizeBehind d [] b = tokenize d b := rfl
    rw [← hfresh]
    rcases tokenizeBehind_cases d (Text.lastLine_of_endsLine ha) b with
      ⟨same, hok, hok'⟩ | ⟨read, unread, defect, -, -, -, hfails, hfails'⟩
    · rw [hok, hok']
    · rw [hfails, hfails']
      simp

/-- The indentation in front of an inclusion is seen by a run that starts behind it, whatever the
lines before it hold, and not by one that starts on a fresh line. -/
theorem tokenizeBehind_congr_inclusion :
    tokenizeBehind .braces "  ".toList "\x7b\x7b>p\x7d\x7d\ny".toList =
        .ok [.inclusion ['p'] "  ".toList, .text ['y']] ∧
      tokenizeBehind .braces "x\n".toList "\x7b\x7b>p\x7d\x7d\ny".toList =
        .ok [.inclusion ['p'] [], .text ['y']] := by
  have hindented : tokenizeBehind .braces "x\n  ".toList "\x7b\x7b>p\x7d\x7d\ny".toList =
      .ok [.inclusion ['p'] "  ".toList, .text ['y']] := by decide +kernel
  have hline : Text.lastLine "x\n  ".toList = Text.lastLine "  ".toList := by decide
  constructor
  · rcases (tokenizeBehind_congr .braces hline _).1 with
      ⟨tokens, hok, hok'⟩ | ⟨_, _, _, _, -, hfails, -⟩
    · rw [hok', ← hok, hindented]
    · cases hindented.symm.trans hfails
  · exact ((tokenizeBehind_congr .braces (a := "x\n".toList) rfl _).2 (.inr ⟨['x'], rfl⟩) _).2
      (by decide +kernel)

end Mustache
