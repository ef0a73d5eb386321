import Mustache.Proofs.Place
import Mustache.Proofs.TagReading

/-! The grammar of templates. A run of the lexer follows the cut of its template: it goes over
one gap and one tag at a time, and what it has collected and logged behind each tag is what the cut
says. Every template has a cut, up to its end or up to something that is no tag. -/
namespace Mustache

/-- The place behind a tag, past the end of the line if the tag stands alone. -/
def Reader.pastLine (alone : Bool) (r : Reader) : Reader :=
  r.skip (if alone then r.lineTail?.getD [] else [])

/-- The entries of a log for a tag that is read at a place under a pair. -/
def Record.ofTag (place : Position) (d : Delimiters) (token : Token) (alone : Bool) :
    List Record :=
  match token with
  | .setDelimiters pair => [.changed place d pair, .tag place .setDelimiters alone]
  | _ => [.tag place token.kind alone]

namespace Cut

/-- The log of a run over a part of a template, where `before` precedes the part, newest first,
and `ending` follows it. -/
def recordsFrom (ending : Text) (d : Delimiters) (before : Text) : Cut → List Record
  | .last _ => []
  | .tag gap s later =>
    let start := gap.reverse ++ before
    let after := later.text (s.next d) ++ ending
    Record.ofTag (Position.start.after start.reverse) d (s.token start)
        (decide (StandsAlone (s.token start) start after)) ++
      later.recordsFrom ending (s.next d) ((s.text d).reverse ++ start)

/-- What follows a cut in a template: nothing, or the opening sequence in effect, which comes
first behind the last gap. -/
def Precedes (d : Delimiters) (cut : Cut) (ending : Text) : Prop :=
  ending = [] ∨ FirstAfter (cut.delimiters d).opening cut.lastGap ∧
    ∃ inside, ending = (cut.delimiters d).opening ++ inside

@[simp] lemma textTokens_nil : textTokens [] = [] := rfl

lemma textTokens_of_ne_nil {t : Text} (h : t ≠ []) : textTokens t = [.text t] := by
  simp [textTokens, h]

lemma reverse_textTokens (t : Text) : (textTokens t).reverse = textTokens t := by
  by_cases h : t = [] <;> simp [textTokens, h]

/-- Taking the indentation off the newest token takes it off the gap that was read last. -/
lemma dropIndent_textTokens {earlier : List Token} (h : ∀ t ∈ earlier.head?, t.isText = false)
    (t : Text) : Lexer.dropIndent (textTokens t ++ earlier) =
      textTokens (Text.dropEndWhile isIndent t) ++ earlier := by
  by_cases ht : t = []
  · subst ht
    cases earlier with
    | nil => rfl
    | cons token earlier =>
      have htoken := h token rfl
      cases token <;> first | rfl | cases htoken
  · rw [textTokens_of_ne_nil ht, textTokens]
    by_cases hk : Text.dropEndWhile isIndent t = [] <;> simp [Lexer.dropIndent, hk]

end Cut

lemma Text.afterLine_append {gap x : Text} (h : AtLineEnd (gap ++ x))
    (hx : x = [] ∨ ∃ c t, x = c :: t ∧ isBlank c = false) :
    afterLine (gap ++ x) = afterLine gap ++ x := by
  rcases hx with rfl | ⟨c, t, rfl, hc⟩
  · simp
  · obtain ⟨w, g, rfl, -⟩ := (atLineEnd_append_cons_iff hc).1 h
    exact afterLine_append_of_mem (by simp) _

/-- Behind a tag, the run goes on with what is kept at the front of the next gap. -/
lemma Reader.exists_pastLine {r : Reader} {gap x : Text} {alone : Bool} (hr : r.rest = gap ++ x)
    (hx : x = [] ∨ ∃ c t, x = c :: t ∧ isBlank c = false)
    (halone : alone = true → Text.AtLineEnd r.rest) :
    ∃ skipped, gap = skipped ++ Cut.kept alone false gap ∧
      r.pastLine alone = r.advance skipped.length := by
  cases alone with
  | false => exact ⟨[], rfl, rfl⟩
  | true =>
    have hend := halone rfl
    have hsplit : r.lineTail?.getD [] ++ Text.afterLine gap ++ x = gap ++ x := by
      rw [List.append_assoc, ← Text.afterLine_append (hr ▸ hend) hx, ← hr]
      exact Text.lineTail?_append_afterLine hend
    exact ⟨r.lineTail?.getD [], (List.append_cancel_right hsplit).symm, rfl⟩

/-- Places are counted over what was consumed, on every move forward. -/
lemma Reader.position_advance_of_start {r : Reader}
    (h : r.position = Position.start.after r.consumed.reverse) (n : Nat) :
    (r.advance n).position = Position.start.after (r.advance n).consumed.reverse := by
  rw [position_advance, consumed_advance, h, List.reverse_append, List.reverse_reverse,
    Position.after_append]

namespace Lexer

variable {d : Delimiters} {tokens : List Token} {records : List Record}

lemma lineTail?_of_isSome {token : Token} {before after : Reader}
    (h : token.canStandAlone = true ∧ before.lineIndent?.isSome) :
    lineTail? token before after = after.lineTail? := by
  rw [lineTail?, if_pos (by simpa using h)]

lemma lineTail?_of_not {token : Token} {before after : Reader}
    (h : ¬ (token.canStandAlone = true ∧ before.lineIndent?.isSome)) :
    lineTail? token before after = none := by
  rw [lineTail?, if_neg (by simpa using h)]

lemma lineTail?_of_eq_some {token : Token} {before after : Reader} {tail : Text}
    (h : lineTail? token before after = some tail) : after.lineTail? = some tail := by
  unfold lineTail? at h
  split at h
  · exact h
  · cases h

lemma isSome_lineTail? (token : Token) (before after : Reader) :
    (lineTail? token before after).isSome =
      decide (StandsAlone token before.consumed after.rest) := by
  rw [Bool.eq_iff_iff, decide_eq_true_iff, standsAlone_iff_canStandAlone,
    ← Text.isSome_lineIndent?_iff, ← Text.isSome_lineTail?_iff, ← and_assoc]
  by_cases h : token.canStandAlone = true ∧ before.lineIndent?.isSome
  · rw [lineTail?_of_isSome h]
    exact ⟨fun ht => ⟨h, ht⟩, fun ht => ht.2⟩
  · rw [lineTail?_of_not h]
    exact ⟨fun ht => absurd ht (by simp), fun ht => absurd ht.1 h⟩

lemma skip_lineTail? (token : Token) (before after : Reader) :
    after.skip ((lineTail? token before after).getD []) =
      after.pastLine (decide (StandsAlone token before.consumed after.rest)) := by
  rw [Reader.pastLine, ← isSome_lineTail?]
  by_cases h : token.canStandAlone = true ∧ before.lineIndent?.isSome
  · rw [lineTail?_of_isSome h]
    cases after.lineTail? <;> rfl
  · rw [lineTail?_of_not h]
    rfl

/-- Adding a tag, told by whether it stands alone. -/
lemma addTag_eq (s : Lexer) (token : Token) (after : Reader) {alone : Bool}
    (h : decide (StandsAlone token s.reader.consumed after.rest) = alone) :
    s.addTag token after = ⟨after.pastLine alone, token.delimitersAfter s.delimiters,
      token :: (if alone then dropIndent s.tokens else s.tokens),
      (Record.ofTag s.reader.position s.delimiters token alone).reverse ++ s.records⟩ := by
  subst h
  rw [← skip_lineTail?, ← isSome_lineTail?]
  cases token <;> rfl

lemma takeUntilOrEnd_of_firstAfter {r : Reader} {p u w : Text} (hr : r.rest = u ++ p ++ w)
    (hu : FirstAfter p u) : r.takeUntilOrEnd p = (u, r.advance u.length) := by
  rw [Reader.takeUntilOrEnd, hr, firstIndex?_append hu]
  simp [Reader.peek, hr]

lemma takeUntilOrEnd_of_not_infix {r : Reader} {p : Text} (h : ¬ p <:+: r.rest) :
    r.takeUntilOrEnd p = (r.rest, r.advance r.rest.length) := by
  rw [Reader.takeUntilOrEnd, firstIndex?_eq_none_iff.2 h]
  rfl

/-- A run goes over a stretch of text in one step, or in none if the text is empty. -/
lemma run_text {r : Reader} {t x : Text} (hr : r.rest = t ++ x)
    (hx : (x = [] ∧ ¬ d.opening <:+: t) ∨ FirstAfter d.opening t ∧ ∃ y, x = d.opening ++ y) :
    run ⟨r, d, tokens, records⟩ =
      run ⟨r.advance t.length, d, Cut.textTokens t ++ tokens, records⟩ := by
  by_cases ht : t = []
  · subst ht
    rfl
  have htake : r.takeUntilOrEnd d.opening = (t, r.advance t.length) := by
    rcases hx with ⟨rfl, hno⟩ | ⟨hfirst, y, rfl⟩
    · rw [List.append_nil] at hr
      rw [← hr] at hno ⊢
      exact takeUntilOrEnd_of_not_infix hno
    · exact takeUntilOrEnd_of_firstAfter (by rw [hr, List.append_assoc]) hfirst
  have hstart : r.startsWith d.opening = false := by
    rw [Reader.startsWith, Bool.eq_false_iff, ne_eq, List.isPrefixOf_iff_prefix, hr]
    rcases hx with ⟨rfl, hno⟩ | ⟨hfirst, y, rfl⟩
    · rw [List.append_nil]
      exact fun hp => hno hp.isInfix
    · rw [← List.append_assoc]
      exact hfirst.not_prefix ht y
  have hstep : step ⟨r, d, tokens, records⟩ =
      .ok ⟨r.advance t.length, d, .text t :: tokens, records⟩ := by
    simp [step, hstart, readText, htake, pure, Except.pure]
  have hend : r.atEnd = false := by
    cases t with
    | nil => exact absurd rfl ht
    | cons c t => simp [Reader.atEnd, hr]
  rw [run_of_step_eq_ok hend hstep, Cut.textTokens_of_ne_nil ht]
  rfl

/-- A run goes over a gap and collects what the tag before the gap leaves of it. -/
lemma run_gap {r : Reader} {gap x : Text} {alone : Bool} (hd : d.Valid) (hr : r.rest = gap ++ x)
    (hx : (x = [] ∧ ¬ d.opening <:+: gap) ∨ FirstAfter d.opening gap ∧ ∃ y, x = d.opening ++ y)
    (halone : alone = true → Text.AtLineEnd r.rest) :
    run ⟨r.pastLine alone, d, tokens, records⟩ =
      run ⟨r.advance gap.length, d, Cut.textTokens (Cut.kept alone false gap) ++ tokens,
        records⟩ := by
  have hfront : x = [] ∨ ∃ c t, x = c :: t ∧ isBlank c = false := by
    rcases hx with ⟨h, -⟩ | ⟨-, y, rfl⟩
    · exact .inl h
    · obtain ⟨c, t, hopen, hc⟩ := exists_cons_of_isMark hd.1
      exact .inr ⟨c, t ++ y, by rw [hopen]; rfl, hc⟩
  obtain ⟨skipped, hgap, hpast⟩ := Reader.exists_pastLine hr hfront halone
  generalize Cut.kept alone false gap = t at hgap
  subst hgap
  have hrest : (r.advance skipped.length).rest = t ++ x :=
    Reader.rest_advance_of_append (by rw [hr, List.append_assoc]) rfl
  have hx' : (x = [] ∧ ¬ d.opening <:+: t) ∨ FirstAfter d.opening t ∧ ∃ y, x = d.opening ++ y := by
    rcases hx with ⟨h, hno⟩ | ⟨hfirst, hy⟩
    · exact .inl ⟨h, fun hin => hno (hin.trans (List.suffix_append skipped t).isInfix)⟩
    · exact .inr ⟨hfirst.of_append, hy⟩
  rw [hpast, run_text hrest hx', Reader.advance_advance, ← List.length_append]

/-- A run in front of a well-formed spelling reads that tag in one step. -/
lemma run_tag (tokens : List Token) (records : List Record) {r : Reader} {s : Spelling}
    {after : Text} {alone : Bool} (hs : s.WellFormed d) (hr : r.rest = s.text d ++ after)
    (halone : decide (StandsAlone (s.token r.consumed) r.consumed after) = alone) :
    run ⟨r, d, tokens, records⟩ =
      run ⟨(r.advance (s.text d).length).pastLine alone, s.next d,
        s.token r.consumed :: (if alone then dropIndent tokens else tokens),
        (Record.ofTag r.position d (s.token r.consumed) alone).reverse ++ records⟩ := by
  have hafter : (r.advance (s.text d).length).rest = after := Reader.rest_advance_of_append hr rfl
  have hstart : r.startsWith d.opening = true := by
    rw [Reader.startsWith, List.isPrefixOf_iff_prefix, hr]
    exact (s.opening_prefix_text d).trans (List.prefix_append _ _)
  have hstep : step ⟨r, d, tokens, records⟩ =
      .ok (addTag ⟨r, d, tokens, records⟩ (s.token r.consumed)
        (r.advance (s.text d).length)) := by
    rw [step, if_pos hstart]
    exact readTag_of_spelling hs hr
  have hend : r.atEnd = false := by
    rw [Reader.atEnd, hr, Spelling.text]
    simp
  have halone' : decide (StandsAlone (s.token r.consumed) r.consumed
      (r.advance (s.text d).length).rest) = alone := by
    rw [hafter, halone]
  rw [run_of_step_eq_ok hend hstep, addTag_eq _ _ _ halone', hs.delimitersAfter_token]

/-- A run goes over a whole cut and has then collected the tokens of the cut and logged its tags. -/
theorem run_cut (cut : Cut) (tokens : List Token) (records : List Record) {ending : Text}
    {r : Reader} {alone : Bool} (hd : d.Valid)
    (hcut : cut.WellFormed d) (hending : cut.Precedes d ending)
    (hr : r.rest = cut.text d ++ ending)
    (hplace : r.position = Position.start.after r.consumed.reverse)
    (halone : alone = true → Text.AtLineEnd r.rest)
    (htokens : ∀ t ∈ tokens.head?, t.isText = false) :
    run ⟨r.pastLine alone, d, tokens, records⟩ =
      run ⟨r.advance (cut.text d).length, cut.delimiters d,
        (cut.tokensFrom ending d r.consumed alone).reverse ++ tokens,
        (cut.recordsFrom ending d r.consumed).reverse ++ records⟩ := by
  induction cut generalizing d r alone tokens records with
  | last gap =>
    have hx : (ending = [] ∧ ¬ d.opening <:+: gap) ∨
        FirstAfter d.opening gap ∧ ∃ y, ending = d.opening ++ y := by
      rcases hending with h | h
      · exact .inl ⟨h, hcut⟩
      · exact .inr h
    rw [run_gap hd hr hx halone, Cut.tokensFrom, Cut.reverse_textTokens]
    rfl
  | tag gap s later ih =>
    obtain ⟨hfirst, hs, hlater⟩ := hcut
    generalize hafter : later.text (s.next d) ++ ending = after
    have hr' : r.rest = gap ++ (s.text d ++ after) := by
      rw [hr, Cut.text, ← hafter]
      simp only [List.append_assoc]
    have hopen : ∃ y, s.text d ++ after = d.opening ++ y :=
      ⟨s.padding ++ s.tag.sigil :: s.tag.content ++ d.closing ++ s.brace ++ after, by
        simp [Spelling.text]⟩
    have hstart : (r.advance gap.length).consumed = gap.reverse ++ r.consumed :=
      Reader.consumed_advance_of_append hr' rfl
    have htag : (r.advance gap.length).rest = s.text d ++ after :=
      Reader.rest_advance_of_append hr' rfl
    rw [run_gap hd hr' (.inr ⟨hfirst, hopen⟩) halone]
    generalize halone' : decide (StandsAlone (s.token (gap.reverse ++ r.consumed))
      (gap.reverse ++ r.consumed) after) = alone'
    have hrun₁ := run_tag (Cut.textTokens (Cut.kept alone false gap) ++ tokens)
      records hs htag (hstart ▸ halone')
    have hplace₁ := Reader.position_advance_of_start hplace gap.length
    have hnext : ((r.advance gap.length).advance (s.text d).length).rest =
        later.text (s.next d) ++ ending := by
      rw [hafter]
      exact Reader.rest_advance_of_append htag rfl
    have hconsumed : ((r.advance gap.length).advance (s.text d).length).consumed =
        (s.text d).reverse ++ (gap.reverse ++ r.consumed) := by
      rw [← hstart]
      exact Reader.consumed_advance_of_append htag rfl
    have halone₁ : alone' = true →
        Text.AtLineEnd ((r.advance gap.length).advance (s.text d).length).rest := by
      intro h
      rw [hnext, hafter]
      rw [← halone', decide_eq_true_iff] at h
      exact h.2.2
    -- The newest token is the tag, so the rest of the run leaves the text before it as it is.
    have hkept : (if alone' then dropIndent (Cut.textTokens (Cut.kept alone false gap) ++ tokens)
        else Cut.textTokens (Cut.kept alone false gap) ++ tokens) =
          Cut.textTokens (Cut.kept alone alone' gap) ++ tokens := by
      cases alone'
      · rfl
      · exact Cut.dropIndent_textTokens htokens _
    rw [hkept, hplace₁, hstart] at hrun₁
    have hrun₂ := ih (s.token (gap.reverse ++ r.consumed) ::
      (Cut.textTokens (Cut.kept alone alone' gap) ++ tokens))
      ((Record.ofTag (Position.start.after (gap.reverse ++ r.consumed).reverse) d
        (s.token (gap.reverse ++ r.consumed)) alone').reverse ++ records) (hs.valid_next hd) hlater
      hending hnext (Reader.position_advance_of_start hplace₁ _) halone₁
      (fun t ht => by cases ht; exact hs.isText_token _)
    rw [hrun₁, hrun₂, hconsumed, Cut.tokensFrom, Cut.recordsFrom, hafter, halone']
    simp only [Reader.advance_advance, Cut.text, List.length_append, List.reverse_append,
      List.reverse_cons, Cut.reverse_textTokens, List.append_assoc, List.cons_append,
      List.nil_append, Nat.add_assoc]
    rfl

end Lexer

/-- The place in a source after a part that it starts with. -/
lemma Reader.position_advance_ofText {source t u : Text} (h : source = t ++ u) :
    ((Reader.ofText source).advance t.length).position = Position.start.after t := by
  rw [position_advance, h]
  simp [ofText]

lemma runOn_eq_run {d : Delimiters} {cut : Cut} {ending : Text} (hd : d.Valid)
    (hcut : cut.WellFormed d) (hending : cut.Precedes d ending) :
    Lexer.runOn d (cut.text d ++ ending) =
      Lexer.run ⟨(Reader.ofText (cut.text d ++ ending)).advance (cut.text d).length,
        cut.delimiters d, (cut.tokensFrom ending d [] false).reverse,
        (cut.recordsFrom ending d []).reverse⟩ := by
  have hr : (Reader.ofText (cut.text d ++ ending)).rest = cut.text d ++ ending := rfl
  have hrun := Lexer.run_cut cut [] [] hd hcut hending hr rfl
    (fun h : false = true => by cases h) (by simp)
  rw [List.append_nil, List.append_nil] at hrun
  exact hrun

/-- A run over a template with a cut up to its end gives the tokens of the cut and logs its
tags. -/
theorem runOn_of_cut {d : Delimiters} {cut : Cut} (hd : d.Valid) (hcut : cut.WellFormed d) :
    Lexer.runOn d (cut.text d) =
      ⟨cut.recordsFrom [] d [] ++ [.complete (cut.tokens d).length], .ok (cut.tokens d)⟩ := by
  have hrun := runOn_eq_run hd hcut (.inl rfl)
  have hend : ((Reader.ofText (cut.text d ++ [])).advance (cut.text d).length).atEnd = true := by
    rw [Reader.atEnd, Reader.rest_advance_of_append (u := []) rfl rfl]
    rfl
  rw [List.append_nil] at hrun hend
  rw [hrun, Lexer.run_of_atEnd hend, List.reverse_reverse, List.reverse_cons, List.reverse_reverse,
    List.length_reverse]
  rfl

/-- A template with a cut up to its end has the tokens of the cut. -/
theorem tokenize_of_cut {d : Delimiters} {cut : Cut} (hd : d.Valid) (hcut : cut.WellFormed d) :
    tokenize d (cut.text d) = .ok (cut.tokens d) := by
  rw [tokenize, runOn_of_cut hd hcut]

lemma Cut.WellFormed.valid_delimiters {d : Delimiters} {cut : Cut} (hcut : cut.WellFormed d)
    (hd : d.Valid) : (cut.delimiters d).Valid := by
  induction cut generalizing d with
  | last gap => exact hd
  | tag gap s later ih => exact ih hcut.2.2 (hcut.2.1.valid_next hd)

/-- A run over a template with a cut up to something that is no tag fails where the defect is
noticed, and has logged the tags before it. -/
theorem runOn_of_broken {d : Delimiters} {cut : Cut} {defect : Defect} {read unread : Text}
    (hd : d.Valid) (hcut : cut.WellFormed d)
    (hfirst : FirstAfter (cut.delimiters d).opening cut.lastGap)
    (hbroken : Broken (cut.delimiters d) defect read unread) :
    Lexer.runOn d (cut.text d ++ ((cut.delimiters d).opening ++ read ++ unread)) =
      ⟨cut.recordsFrom ((cut.delimiters d).opening ++ read ++ unread) d [],
        .error ⟨Position.start.after (cut.text d ++ ((cut.delimiters d).opening ++ read)),
          defect⟩⟩ := by
  rw [runOn_eq_run hd hcut (.inr ⟨hfirst, read ++ unread, List.append_assoc _ _ _⟩)]
  generalize hsource : cut.text d ++ ((cut.delimiters d).opening ++ read ++ unread) = source
  have hrest : ((Reader.ofText source).advance (cut.text d).length).rest =
      (cut.delimiters d).opening ++ read ++ unread :=
    Reader.rest_advance_of_append hsource.symm rfl
  have hend : ((Reader.ofText source).advance (cut.text d).length).atEnd = false := by
    have hne := ne_nil_of_isMark (hcut.valid_delimiters hd).1
    rw [Reader.atEnd, hrest]
    simp [hne]
  have hstart : ((Reader.ofText source).advance (cut.text d).length).startsWith
      (cut.delimiters d).opening = true := by
    rw [Reader.startsWith, List.isPrefixOf_iff_prefix, hrest, List.append_assoc]
    exact List.prefix_append _ _
  have hposition : (((Reader.ofText source).advance (cut.text d).length).advance
      ((cut.delimiters d).opening ++ read).length).position =
        Position.start.after (cut.text d ++ ((cut.delimiters d).opening ++ read)) := by
    rw [Reader.advance_advance, ← List.length_append]
    exact Reader.position_advance_ofText (u := unread)
      (by rw [← hsource]; simp only [List.append_assoc])
  generalize (Reader.ofText source).advance (cut.text d).length = r at hrest hend hstart hposition ⊢
  have hstep : ∀ tokens records, Lexer.step ⟨r, cut.delimiters d, tokens, records⟩ =
      .error ⟨Position.start.after (cut.text d ++ ((cut.delimiters d).opening ++ read)),
        defect⟩ := by
    intro tokens records
    rw [Lexer.step, if_pos hstart, ← hposition]
    exact Lexer.readTag_of_broken hbroken hrest
  rw [Lexer.run_of_step_eq_error hend (hstep _ _), List.reverse_reverse]

/-- A template with a cut up to something that is no tag fails where the defect is noticed. -/
theorem tokenize_of_broken {d : Delimiters} {cut : Cut} {defect : Defect} {read unread : Text}
    (hd : d.Valid) (hcut : cut.WellFormed d)
    (hfirst : FirstAfter (cut.delimiters d).opening cut.lastGap)
    (hbroken : Broken (cut.delimiters d) defect read unread) :
    tokenize d (cut.text d ++ ((cut.delimiters d).opening ++ read ++ unread)) =
      .error ⟨Position.start.after (cut.text d ++ ((cut.delimiters d).opening ++ read)),
        defect⟩ := by
  rw [tokenize, runOn_of_broken hd hcut hfirst hbroken]

/-- Every template has a cut, up to its end or up to something that is no tag. -/
theorem exists_cut {d : Delimiters} (hd : d.Valid) (source : Text) :
    (∃ cut : Cut, cut.WellFormed d ∧ cut.text d = source) ∨
      ∃ (cut : Cut) (defect : Defect) (read unread : Text), cut.WellFormed d ∧
        FirstAfter (cut.delimiters d).opening cut.lastGap ∧
        Broken (cut.delimiters d) defect read unread ∧
        cut.text d ++ ((cut.delimiters d).opening ++ read ++ unread) = source := by
  induction hn : source.length using Nat.strong_induction_on generalizing d source with
  | _ n ih =>
    cases hfind : firstIndex? d.opening source with
    | none => exact .inl ⟨.last source, firstIndex?_eq_none_iff.1 hfind, rfl⟩
    | some m =>
      obtain ⟨gap, inside, rfl, -, hgap⟩ := exists_of_firstIndex?_eq_some hfind
      rcases exists_spelling_or_broken d inside with
        ⟨s, after, hs, htext⟩ | ⟨defect, read, unread, hbroken, rfl⟩
      · rw [List.append_assoc, htext] at hn ⊢
        have hlt : after.length < n := by
          rw [← hn, Spelling.text]
          simp only [List.length_append, List.length_cons]
          omega
        rcases ih after.length hlt (hs.valid_next hd) after rfl with
          ⟨later, hlater, rfl⟩ | ⟨later, defect, read, unread, hlater, hfirst, hbroken, rfl⟩
        · exact .inl ⟨.tag gap s later, ⟨hgap, hs, hlater⟩, by simp [Cut.text]⟩
        · exact .inr ⟨.tag gap s later, defect, read, unread, ⟨hgap, hs, hlater⟩, hfirst, hbroken,
            by simp [Cut.text, Cut.delimiters]⟩
      · exact .inr ⟨.last gap, defect, read, unread, hgap.not_infix (ne_nil_of_isMark hd.1), hgap,
          hbroken, by simp [Cut.text, Cut.delimiters]⟩

/-- Tokens that the lexer gives are those of a cut. -/
theorem exists_cut_of_tokenize_eq_ok {d : Delimiters} (hd : d.Valid) {source : Text}
    {tokens : List Token} (h : tokenize d source = .ok tokens) :
    ∃ cut : Cut, cut.WellFormed d ∧ cut.text d = source ∧ cut.tokens d = tokens := by
  rcases exists_cut hd source with
    ⟨cut, hcut, rfl⟩ | ⟨cut, defect, read, unread, hcut, hfirst, hbroken, rfl⟩
  · rw [tokenize_of_cut hd hcut, Except.ok.injEq] at h
    exact ⟨cut, hcut, rfl, h⟩
  · rw [tokenize_of_broken hd hcut hfirst hbroken] at h
    cases h

/-- The lexer is exactly its grammar: it gives tokens for a template if and only if the template
can be cut into gaps and tags, and then they are the tokens of the cut. -/
theorem tokenize_eq_ok_iff_exists_cut {d : Delimiters} (hd : d.Valid) (source : Text)
    (tokens : List Token) :
    tokenize d source = .ok tokens ↔
      ∃ cut : Cut, cut.WellFormed d ∧ cut.text d = source ∧ cut.tokens d = tokens := by
  constructor
  · exact exists_cut_of_tokenize_eq_ok hd
  · rintro ⟨cut, hcut, rfl, rfl⟩
    exact tokenize_of_cut hd hcut

/-- A block that stands alone takes its indentation and its line end away. -/
theorem tokenize_block_alone :
    tokenize .braces " \x7b\x7b# a\x7d\x7d\nx".toList = .ok [.block .plain ['a'], .text ['x']] := by
  refine (tokenize_eq_ok_iff_exists_cut Delimiters.valid_braces _ _).2
    ⟨.tag [' '] ⟨[], '#', [' ', 'a']⟩ (.last ['\n', 'x']), ?_, ?_, ?_⟩
  all_goals decide

/-- The lexer fails if and only if the template can be cut up to an opening sequence with no tag
behind it; the failure tells what is wrong there and where it is noticed. -/
theorem tokenize_eq_error_iff_exists_cut {d : Delimiters} (hd : d.Valid) (source : Text)
    (failure : Failure) :
    tokenize d source = .error failure ↔
      ∃ (cut : Cut) (read unread : Text), cut.WellFormed d ∧
        FirstAfter (cut.delimiters d).opening cut.lastGap ∧
        Broken (cut.delimiters d) failure.defect read unread ∧
        source = cut.text d ++ ((cut.delimiters d).opening ++ read ++ unread) ∧
        failure.position = .ofText (cut.text d ++ ((cut.delimiters d).opening ++ read)) := by
  constructor
  · intro h
    obtain ⟨cut, hcut, rfl⟩ | ⟨cut, defect, read, unread, hcut, hfirst, hbroken, rfl⟩ :=
      exists_cut hd source
    · rw [tokenize_of_cut hd hcut] at h
      cases h
    · rw [tokenize_of_broken hd hcut hfirst hbroken, Position.start_after] at h
      obtain rfl := Except.error.inj h
      exact ⟨cut, read, unread, hcut, hfirst, hbroken, rfl, rfl⟩
  · rintro ⟨cut, read, unread, hcut, hfirst, hbroken, rfl, hposition⟩
    rw [tokenize_of_broken hd hcut hfirst hbroken, Position.start_after, ← hposition]

end Mustache
