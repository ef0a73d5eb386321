import Mustache.Proofs.Followed

/-! What a tag that stands alone takes away. The decision is made on the source, by looking back
over the line, while the indentation is taken off the newest token; both mean the same characters,
because a text that was read begins where no indentation precedes it. So a step changes at most the
newest token, and only by the indentation that was reported. -/
namespace Mustache

namespace Text

/-- No indentation precedes a place on its line: either something else does, or the line starts
there. `before` holds the characters before the place, newest first. -/
def Unindented (before : Text) : Prop := ∀ i, lineIndent? before = some i → i = []

lemma unindented_of_eq_none {before : Text} (h : lineIndent? before = none) :
    Unindented before := by
  intro i hi
  cases h.symm.trans hi

lemma unindented_nil : Unindented [] := by
  rintro i ⟨⟩
  rfl

lemma unindented_lineFeed (x : Text) : Unindented ('\n' :: x) := by
  intro i hi
  rw [lineIndent?_lineFeed, Option.some.injEq] at hi
  exact hi.symm

/-- Where no line starts, line blanks do not start one. -/
lemma lineIndent?_lineBlanks_append {w x : Text} (hw : ∀ c ∈ w, isLineBlank c = true)
    (hx : lineIndent? x = none) : lineIndent? (w ++ x) = none := by
  induction w with
  | nil => exact hx
  | cons c w ih =>
    have hrest : lineIndent? (w ++ x) = none := ih fun a ha => hw a (by simp [ha])
    by_cases hc : isIndent c = true
    · rw [List.cons_append, ← List.singleton_append, lineIndent?_append_indent (by simpa using hc),
        hrest]
      rfl
    · have hreturn : c = '\r' := by simpa [isLineBlank, hc] using hw c (by simp)
      subst hreturn
      rfl

/-- The blank rest of a line goes up to its line feed, or makes up all that is left. -/
lemma lineTail?_eq_some_cases {t tail : Text} (h : lineTail? t = some tail) :
    (∃ u, tail = u ++ ['\n'] ∧ ∀ c ∈ u, isLineBlank c = true) ∨
      tail = t ∧ ∀ c ∈ t, isLineBlank c = true := by
  have hbreaks : Breaks (t.dropWhile isLineBlank) :=
    atLineEnd_iff_breaks.1 (isSome_lineTail?_iff.1 (Option.isSome_of_eq_some h))
  rw [lineTail?_of_breaks hbreaks, Option.some.injEq] at h
  subst h
  rcases hbreaks with hnil | ⟨q, hq⟩
  · have hall := List.dropWhile_eq_nil_iff.1 hnil
    rw [hnil, List.takeWhile_eq_self_iff.2 hall]
    exact .inr ⟨by simp, hall⟩
  · rw [hq]
    exact .inl ⟨_, rfl, fun c hc => List.mem_takeWhile_imp hc⟩

/-- A text that is read in front of a tag that starts its line ends with the indentation of that
line, behind a line feed unless there is nothing else in it. -/
lemma exists_of_lineIndent?_append {content before indent : Text} (hbefore : Unindented before)
    (h : lineIndent? (content.reverse ++ before) = some indent) :
    (content = indent ∧ dropEndWhile isIndent content = []) ∨
      ∃ u, content = u ++ '\n' :: indent ∧ dropEndWhile isIndent content = u ++ ['\n'] := by
  obtain ⟨w, hcontent, hw⟩ := exists_dropEndWhile_append isIndent content
  rcases dropEndWhile_eq_nil_or_concat isIndent content with hnil | ⟨u, c, hconcat, hc⟩
  · left
    rw [hnil, List.nil_append] at hcontent
    subst hcontent
    rw [lineIndent?_reverse_append hw, Option.map_eq_some_iff] at h
    obtain ⟨i, hi, rfl⟩ := h
    rw [hbefore i hi]
    exact ⟨rfl, hnil⟩
  · right
    rw [hconcat] at hcontent
    have hlook : lineIndent? (c :: (u.reverse ++ before)) = if c = '\n' then some [] else none := by
      by_cases hfeed : c = '\n' <;> simp [lineIndent?, hc, hfeed]
    rw [hcontent, List.reverse_append, List.append_assoc, lineIndent?_reverse_append hw,
      List.reverse_concat, List.cons_append, hlook, Option.map_eq_some_iff] at h
    obtain ⟨i, hi, rfl⟩ := h
    split at hi
    next hfeed =>
      cases hi
      subst hfeed
      exact ⟨u, by simpa using hcontent, hconcat⟩
    next => cases hi

end Text

/-- What a tag that stands alone takes off the newest token: the indentation of its line, if that
token is text. Nothing is left of the text, and it is dropped, or it ends with a line feed. Where
the newest token is no text, there is no indentation. Tokens are given newest first. -/
inductive Stripped (indent : Text) : List Token → List Token → Prop
  | dropped (earlier : List Token) : Stripped indent (.text indent :: earlier) earlier
  | shortened (u : Text) (earlier : List Token) :
      Stripped indent (.text (u ++ '\n' :: indent) :: earlier) (.text (u ++ ['\n']) :: earlier)
  | untouched {tokens : List Token} (hindent : indent = [])
      (htokens : ∀ t ∈ tokens.head?, t.isText = false) : Stripped indent tokens tokens

namespace Lexer

variable {d : Delimiters} {s next : Lexer}

/-- A tag takes its line with it: the indentation that is reported in front of it goes from the
newest token, and what is skipped behind it is the rest of the line that is reported there, up to
the first line feed or to the end. -/
structure TakesLine (s next : Lexer) (token : Token) (behind : Reader) (indent tail : Text) :
    Prop where
  before : s.reader.lineIndent? = some indent
  tokens : ∃ kept, Stripped indent s.tokens kept ∧ next.tokens = token :: kept
  after : behind.lineTail? = some tail
  reader : next.reader = behind.skip tail
  rest : behind.rest = tail ++ next.reader.rest
  ends : (∃ u, tail = u ++ ['\n'] ∧ '\n' ∉ u) ∨ '\n' ∉ tail ∧ next.reader.rest = []

/-- How the newest token lies in the template. If it is text, it is what was read last, from a
place with no indentation before it, and a tag or the end follows; if not, no indentation precedes
the place of the run. -/
structure Settled (s : Lexer) : Prop where
  text : ∀ content earlier, s.tokens = .text content :: earlier →
    (∃ before, s.reader.consumed = content.reverse ++ before ∧ Text.Unindented before) ∧
      (s.reader.startsWith s.delimiters.opening = true ∨ s.reader.rest = [])
  tag : (∀ t ∈ s.tokens.head?, t.isText = false) → Text.Unindented s.reader.consumed

lemma settled_start (d : Delimiters) (source : Text) : (start d (.ofText source)).Settled where
  text := by
    intro content earlier h
    cases h
  tag := fun _ => Text.unindented_nil

/-- Text is read only behind a token that is no text. -/
lemma Settled.readText (h : s.Settled) (hend : s.reader.atEnd = false)
    (hopen : s.reader.startsWith s.delimiters.opening = false) : s.readText.Settled := by
  have hnewest : ∀ t ∈ s.tokens.head?, t.isText = false := by
    intro t ht
    cases t with
    | text content =>
      obtain ⟨earlier, htokens⟩ := List.head?_eq_some_iff.1 ht
      rcases (h.text content earlier htokens).2 with hopen' | hrest
      · cases hopen.symm.trans hopen'
      · rw [Reader.atEnd, hrest] at hend
        cases hend
    | _ => rfl
  constructor
  · intro content earlier htokens
    obtain ⟨hcontent, -⟩ := List.cons.inj htokens
    have hcontent : (s.reader.takeUntilOrEnd s.delimiters.opening).1 = content :=
      Token.text.inj hcontent
    refine ⟨⟨s.reader.consumed, ?_, h.tag hnewest⟩, ?_⟩
    · rw [← hcontent]
      exact (s.reader.passes_takeUntilOrEnd s.delimiters.opening).consumed
    · rcases s.reader.takeUntilOrEnd_cases s.delimiters.opening with ⟨-, hstart⟩ | ⟨-, hrest⟩
      · exact .inl hstart
      · exact .inr hrest
  · intro htag
    cases htag _ (List.head?_cons)

/-- Behind a tag, the rest of its line may be skipped; no indentation precedes what follows. -/
lemma unindented_skip_lineTail? {token : Token} {before behind : Reader}
    (h : Text.lineIndent? behind.consumed = none) :
    Text.Unindented (behind.skip ((Lexer.lineTail? token before behind).getD [])).consumed := by
  cases htail : Lexer.lineTail? token before behind with
  | none => exact Text.unindented_of_eq_none h
  | some tail =>
    have hline := lineTail?_of_eq_some htail
    rw [Option.getD_some, (Reader.passes_skip_lineTail? hline).consumed]
    rcases Text.lineTail?_eq_some_cases hline with ⟨u, rfl, -⟩ | ⟨rfl, hblank⟩
    · rw [List.reverse_concat, List.cons_append]
      exact Text.unindented_lineFeed _
    · apply Text.unindented_of_eq_none
      exact Text.lineIndent?_lineBlanks_append (fun c hc => hblank c (List.mem_reverse.1 hc)) h

lemma Settled.addTag {sp : Spelling} {after : Text} (hd : s.delimiters.Valid)
    (hsp : sp.WellFormed s.delimiters) (hrest : s.reader.rest = sp.text s.delimiters ++ after) :
    (s.addTag (sp.token s.reader.consumed)
      (s.reader.advance (sp.text s.delimiters).length)).Settled := by
  have hbehind : Text.lineIndent?
      (s.reader.advance (sp.text s.delimiters).length).consumed = none := by
    rw [Reader.consumed_advance_of_append hrest rfl]
    exact sp.lineIndent?_text hd _
  constructor
  · intro content earlier htokens
    have htext := hsp.isText_token s.reader.consumed
    rw [(List.cons.inj htokens).1] at htext
    cases htext
  · exact fun _ => unindented_skip_lineTail? hbehind

lemma Settled.goes (h : s.Settled) (hd : s.delimiters.Valid) (hgo : s.Goes next) :
    next.Settled := by
  rcases eq_of_step_eq_ok hgo.2 with ⟨hopen, rfl⟩ | ⟨sp, after, hsp, hrest, rfl⟩
  · exact h.readText hgo.1 hopen
  · exact Settled.addTag hd hsp hrest

/-- Every state that a run reaches is settled. -/
lemma settled_of_reaches (hd : d.Valid) {source : Text}
    (h : (start d (.ofText source)).Reaches s) : s.Settled := by
  induction h with
  | refl => exact settled_start d source
  | tail hreach hgo ih =>
    have hstart : (start d (.ofText source)).Runs source := ⟨Reader.at_ofText source, hd⟩
    exact ih.goes (hstart.reaches hreach).valid hgo

/-- The indentation in the source and the end of the newest text are the same characters. -/
lemma Settled.stripped (h : s.Settled) {indent : Text}
    (hindent : s.reader.lineIndent? = some indent) :
    Stripped indent s.tokens (dropIndent s.tokens) := by
  by_cases hnewest : ∃ content earlier, s.tokens = .text content :: earlier
  · obtain ⟨content, earlier, htokens⟩ := hnewest
    obtain ⟨⟨before, hconsumed, hbefore⟩, -⟩ := h.text content earlier htokens
    rw [Reader.lineIndent?, hconsumed] at hindent
    rw [htokens]
    rcases Text.exists_of_lineIndent?_append hbefore hindent with
      ⟨rfl, hkept⟩ | ⟨u, rfl, hkept⟩
    · rw [dropIndent, hkept]
      exact .dropped earlier
    · rw [dropIndent, hkept]
      simpa using Stripped.shortened u earlier
  · -- Without a text in front, the place itself has no indentation before it.
    simp only [not_exists] at hnewest
    have hnotext : ∀ t ∈ s.tokens.head?, t.isText = false := by
      intro t ht
      cases t with
      | text content =>
        obtain ⟨earlier, htokens⟩ := List.head?_eq_some_iff.1 ht
        exact absurd htokens (hnewest content earlier)
      | _ => rfl
    have hsame : dropIndent s.tokens = s.tokens := by
      unfold dropIndent
      split
      next content earlier htokens => exact absurd htokens (hnewest content earlier)
      next => rfl
    rw [hsame]
    exact .untouched (h.tag hnotext indent hindent) hnotext

/-- A tag that stands alone takes its line with it. -/
lemma Settled.takesLine (h : s.Settled) {token : Token} {behind : Reader}
    (halone : StandsAlone token s.reader.consumed behind.rest) :
    ∃ indent tail, s.TakesLine (s.addTag token behind) token behind indent tail := by
  obtain ⟨indent, hindent⟩ :=
    Option.isSome_iff_exists.1 (Text.isSome_lineIndent?_iff.2 halone.2.1)
  obtain ⟨tail, htail⟩ := Option.isSome_iff_exists.1 (Text.isSome_lineTail?_iff.2 halone.2.2)
  have hline : Lexer.lineTail? token s.reader behind = some tail := by
    rw [lineTail?_of_isSome ⟨Token.writesNothing_iff.1 halone.1, Option.isSome_of_eq_some hindent⟩]
    exact htail
  have hskip := Reader.passes_skip_lineTail? (r := behind) htail
  have hreader : (s.addTag token behind).reader = behind.skip tail := by
    simp only [Lexer.addTag, hline, Option.getD_some]
  have hrest : behind.rest = tail ++ (s.addTag token behind).reader.rest := by
    rw [hreader]
    exact hskip.rest
  refine ⟨indent, tail, hindent, ⟨_, h.stripped hindent, ?_⟩, htail, hreader, hrest, ?_⟩
  · simp only [Lexer.addTag, hline, Option.isSome_some, if_true]
  · rcases Text.lineTail?_eq_some_cases htail with ⟨u, rfl, hu⟩ | ⟨hall, hblank⟩
    · exact .inl ⟨u, rfl, Text.not_lineFeed_mem Text.isLineBlank_lineFeed hu⟩
    · refine .inr ⟨?_, ?_⟩
      · rw [hall]
        exact Text.not_lineFeed_mem Text.isLineBlank_lineFeed hblank
      · rw [hall, List.self_eq_append_right] at hrest
        exact hrest

end Lexer

/-- Taking a line away is exact and local. A step over text adds a token and changes none; so does
a step over a tag that does not stand alone, and it goes on right behind the tag. A tag that stands
alone takes the reported indentation off the newest token, if that is text, and skips the reported
rest of its line; no other token changes. -/
theorem step_takes_line_iff_standsAlone {d : Delimiters} (hd : d.Valid) {source : Text}
    {s next : Lexer} (hreach : (Lexer.start d (.ofText source)).Reaches s) (hgo : s.Goes next) :
    (s.reader.startsWith s.delimiters.opening = false ∧
      ∃ content, next.tokens = .text content :: s.tokens) ∨
    ∃ (sp : Spelling) (behind : Reader), sp.WellFormed s.delimiters ∧
      s.reader.rest = sp.text s.delimiters ++ behind.rest ∧
      behind = s.reader.advance (sp.text s.delimiters).length ∧
      (StandsAlone (sp.token s.reader.consumed) s.reader.consumed behind.rest →
        ∃ indent tail, s.TakesLine next (sp.token s.reader.consumed) behind indent tail) ∧
      (¬ StandsAlone (sp.token s.reader.consumed) s.reader.consumed behind.rest →
        next.tokens = sp.token s.reader.consumed :: s.tokens ∧ next.reader = behind) := by
  have hsettled := Lexer.settled_of_reaches hd hreach
  rcases Lexer.eq_of_step_eq_ok hgo.2 with ⟨hopen, rfl⟩ | ⟨sp, after, hsp, hrest, rfl⟩
  · exact .inl ⟨hopen, _, rfl⟩
  · have hbehind : (s.reader.advance (sp.text s.delimiters).length).rest = after :=
      Reader.rest_advance_of_append hrest rfl
    refine .inr ⟨sp, _, hsp, by rw [hbehind, hrest], rfl, hsettled.takesLine, fun halone => ?_⟩
    rw [Lexer.addTag_eq _ _ _ (decide_eq_false halone)]
    exact ⟨rfl, rfl⟩

/-- A section that stands alone takes the indentation off the text before it. -/
theorem step_takes_line_of_section :
    ∃ s next behind tail,
      (Lexer.start .braces (.ofText "x\n  \x7b\x7b#a\x7d\x7d \ny".toList)).Reaches s ∧
      s.Goes next ∧
      s.TakesLine next (.block .plain ['a']) behind "  ".toList tail ∧
      next.tokens = [.block .plain ['a'], .text "x\n".toList] := by
  have hreach : (Lexer.start .braces (.ofText "x\n  \x7b\x7b#a\x7d\x7d \ny".toList)).Reaches
      ⟨⟨"  \nx".toList, "\x7b\x7b#a\x7d\x7d \ny".toList, ⟨2, 3⟩⟩, .braces,
        [.text "x\n  ".toList], []⟩ :=
    .single ⟨by decide, by decide +kernel⟩
  have hgo : Lexer.Goes
      ⟨⟨"  \nx".toList, "\x7b\x7b#a\x7d\x7d \ny".toList, ⟨2, 3⟩⟩, .braces,
        [.text "x\n  ".toList], []⟩
      ⟨⟨"\n \x7d\x7da#\x7b\x7b  \nx".toList, ['y'], ⟨3, 1⟩⟩, .braces,
        [.block .plain ['a'], .text "x\n".toList], [.tag ⟨2, 3⟩ (.block .plain) true]⟩ :=
    ⟨by decide, by decide +kernel⟩
  rcases step_takes_line_iff_standsAlone Delimiters.valid_braces hreach hgo with
    ⟨hopen, -⟩ | ⟨sp, behind, -, -, -, halone, hother⟩
  · cases hopen
  · by_cases h : StandsAlone (sp.token "  \nx".toList) "  \nx".toList behind.rest
    · obtain ⟨indent, tail, hline⟩ := halone h
      obtain rfl : "  ".toList = indent := Option.some.inj hline.before
      obtain ⟨kept, -, htokens⟩ := hline.tokens
      have htoken : Token.block .plain ['a'] = sp.token "  \nx".toList := (List.cons.inj htokens).1
      rw [← htoken] at hline
      exact ⟨_, _, behind, tail, hreach, hgo, hline, rfl⟩
    · cases (List.cons.inj (hother h).1).2

end Mustache
