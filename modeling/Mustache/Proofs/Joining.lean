import Mathlib.Data.List.Count
import Mustache.Proofs.Grammar
import Mustache.Proofs.Place

/-! Templates one behind the other. Where the first one ends with a line feed, no sequence that
bounds tags and no look around a tag can reach across the seam, so the cuts of both parts make up
a cut of the whole. -/
namespace Mustache

/-- Tokens one behind the other, where two texts that meet become one. -/
def joinTokens : List Token → List Token → List Token
  | [.text t], .text u :: later => .text (t ++ u) :: later
  | [], later => later
  | token :: earlier, later => token :: joinTokens earlier later

lemma joinTokens_nil (later : List Token) : joinTokens [] later = later := by
  rw [joinTokens]

lemma joinTokens_cons_cons (a b : Token) (earlier later : List Token) :
    joinTokens (a :: b :: earlier) later = a :: joinTokens (b :: earlier) later := by
  rw [joinTokens]
  simp

lemma joinTokens_cons {a : Token} (ha : a.isText = false) (earlier later : List Token) :
    joinTokens (a :: earlier) later = a :: joinTokens earlier later := by
  cases a with
  | text t => cases ha
  | _ => rw [joinTokens]; simp

lemma joinTokens_textTokens_cons {a : Token} (ha : a.isText = false) (t : Text)
    (earlier later : List Token) :
    joinTokens (Cut.textTokens t ++ a :: earlier) later =
      Cut.textTokens t ++ a :: joinTokens earlier later := by
  by_cases ht : t = []
  · rw [ht, Cut.textTokens_nil, List.nil_append, List.nil_append, joinTokens_cons ha]
  · rw [Cut.textTokens_of_ne_nil ht, List.singleton_append, List.singleton_append,
      joinTokens_cons_cons, joinTokens_cons ha]

lemma joinTokens_text {t : Text} {later : List Token}
    (hlater : ∀ a ∈ later.head?, a.isText = false) :
    joinTokens [.text t] later = .text t :: later := by
  rw [joinTokens, joinTokens_nil]
  intro _ u rest hrest _ _
  exact absurd (hlater (.text u) (by rw [hrest]; rfl)) (by simp [Token.isText])

/-- Texts that meet at the seam become one, also where one of them is empty. -/
lemma joinTokens_textTokens {t u : Text} {later : List Token}
    (hlater : ∀ a ∈ later.head?, a.isText = false) :
    joinTokens (Cut.textTokens t) (Cut.textTokens u ++ later) =
      Cut.textTokens (t ++ u) ++ later := by
  by_cases ht : t = []
  · rw [ht, Cut.textTokens_nil, joinTokens_nil, List.nil_append]
  · rw [Cut.textTokens_of_ne_nil ht]
    by_cases hu : u = []
    · rw [hu, Cut.textTokens_nil, List.nil_append, joinTokens_text hlater, List.append_nil,
        Cut.textTokens_of_ne_nil ht]
      rfl
    · rw [Cut.textTokens_of_ne_nil hu, Cut.textTokens_of_ne_nil (by simp [ht]),
        List.singleton_append, joinTokens]
      rfl

namespace Cut

/-- Put text in front of the first gap. -/
def prependGap (t : Text) : Cut → Cut
  | .last gap => .last (t ++ gap)
  | .tag gap s later => .tag (t ++ gap) s later

/-- One cut behind another; the gaps that meet become one. -/
def join : Cut → Cut → Cut
  | .last gap, b => b.prependGap gap
  | .tag gap s later, b => .tag gap s (later.join b)

variable {d : Delimiters}

lemma text_prependGap (d : Delimiters) (t : Text) (b : Cut) :
    (b.prependGap t).text d = t ++ b.text d := by
  cases b <;> simp [prependGap, text]

lemma text_join (a b : Cut) (d : Delimiters) :
    (a.join b).text d = a.text d ++ b.text (a.delimiters d) := by
  induction a generalizing d with
  | last gap => exact text_prependGap d gap b
  | tag gap s later ih => simp only [join, text, delimiters, ih, List.append_assoc]

lemma delimiters_join (a b : Cut) (d : Delimiters) :
    (a.join b).delimiters d = b.delimiters (a.delimiters d) := by
  induction a generalizing d with
  | last gap => cases b <;> rfl
  | tag gap s later ih => exact ih (s.next d)

lemma lastGap_suffix_text (cut : Cut) (d : Delimiters) : cut.lastGap <:+ cut.text d := by
  induction cut generalizing d with
  | last gap => exact List.suffix_rfl
  | tag gap s later ih => exact (ih (s.next d)).trans (List.suffix_append _ _)

/-- The tokens of a cut change the delimiters as the cut does. -/
lemma pairAfter_tokensFrom {cut : Cut} (hcut : cut.WellFormed d) (ending before : Text)
    (alone : Bool) : pairAfter d (cut.tokensFrom ending d before alone) = cut.delimiters d := by
  induction cut generalizing d before alone with
  | last gap => exact pairAfter_textTokens d _
  | tag gap s later ih =>
    obtain ⟨-, hs, hlater⟩ := hcut
    rw [tokensFrom, pairAfter_append, pairAfter_textTokens, pairAfter, List.foldl_cons,
      hs.delimitersAfter_token]
    exact ih hlater _ _

/-- A template that ends a line ends with a gap that does, for tags do not end with a blank. -/
lemma exists_lastGap_of_endsLine {cut : Cut} (hd : d.Valid) (hcut : cut.WellFormed d)
    (h : Text.EndsLine (cut.text d)) : cut = .last [] ∨ ∃ u, cut.lastGap = u ++ ['\n'] := by
  induction cut generalizing d with
  | last gap =>
    rcases h with h | h
    · exact .inl (congrArg Cut.last h)
    · exact .inr h
  | tag gap s later ih =>
    obtain ⟨t, c, hs, hc⟩ := s.exists_concat_text hd
    have hend : Text.EndsLine (later.text (s.next d)) := by
      rcases h with h | ⟨u, h⟩
      · simp [text, hs] at h
      · rcases List.eq_nil_or_concat' (later.text (s.next d)) with hnil | ⟨v, a, hv⟩
        · exact .inl hnil
        · rw [text, hv, ← List.append_assoc] at h
          obtain ⟨-, ha⟩ := List.append_inj' h rfl
          exact .inr ⟨v, by rw [hv, ha]⟩
    rcases ih (hcut.2.1.valid_next hd) hcut.2.2 hend with rfl | hlast
    · rcases h with h | ⟨u, h⟩
      · simp [text, hs] at h
      · rw [text, hs, text, List.append_nil, ← List.append_assoc] at h
        obtain ⟨-, ha⟩ := List.append_inj' h rfl
        exact absurd (List.cons.inj ha).1 (Text.ne_lineFeed_of_not_blank hc)
    · exact .inr hlast

section Seam

variable {a b : Cut} {u : Text}

/-- No opening sequence reaches across a line feed at the seam. -/
lemma WellFormed.join (hd : d.Valid) (ha : a.WellFormed d) (hu : a.lastGap = u ++ ['\n'])
    (hb : b.WellFormed (a.delimiters d)) : (a.join b).WellFormed d := by
  induction a generalizing d with
  | last gap =>
    have hn : '\n' ∉ d.opening := notMem_of_isMark hd.1 rfl
    have hno : ¬ d.opening <:+: u := by
      intro h
      apply ha
      rw [show gap = u ++ ['\n'] from hu]
      exact h.trans (List.prefix_append _ _).isInfix
    rw [Cut.join, show gap = u ++ ['\n'] from hu]
    cases b with
    | last gap' =>
      rw [prependGap, WellFormed, List.append_assoc]
      exact fun h => ((infix_append_cons_iff hn).1 h).elim hno hb
    | tag gap' s later =>
      refine ⟨?_, hb.2⟩
      rw [List.append_assoc]
      exact (firstAfter_append_cons_iff hn).2 ⟨hno, hb.1⟩
  | tag gap s later ih =>
    exact ⟨ha.1, ha.2.1, ih (ha.2.1.valid_next hd) ha.2.2 hu hb⟩

lemma firstAfter_lastGap_join (hd : d.Valid) (ha : a.WellFormed d)
    (hu : a.lastGap = u ++ ['\n'])
    (hb : FirstAfter (b.delimiters (a.delimiters d)).opening b.lastGap) :
    FirstAfter ((a.join b).delimiters d).opening (a.join b).lastGap := by
  rw [delimiters_join]
  induction a generalizing d with
  | last gap =>
    cases b with
    | last gap' =>
      have hn : '\n' ∉ d.opening := notMem_of_isMark hd.1 rfl
      rw [show gap = u ++ ['\n'] from hu] at ha ⊢
      rw [Cut.join, prependGap, lastGap, List.append_assoc]
      refine (firstAfter_append_cons_iff hn).2 ⟨fun h => ha ?_, hb⟩
      exact h.trans (List.prefix_append _ _).isInfix
    | tag gap' s later => exact hb
  | tag gap s later ih => exact ih (ha.2.1.valid_next hd) ha.2.2 hu hb

lemma kept_append (alone alone' : Bool) (x : Text) :
    kept alone alone' (u ++ ['\n'] ++ x) =
      kept alone false (u ++ ['\n']) ++ kept false alone' x := by
  have hends : Text.EndsLine (kept alone false (u ++ ['\n'])) := by
    cases alone
    · exact .inr ⟨u, rfl⟩
    · exact Text.endsLine_of_suffix (Text.afterLine_suffix _)
  have hfront : kept alone false (u ++ ['\n'] ++ x) = kept alone false (u ++ ['\n']) ++ x := by
    cases alone
    · rfl
    · exact Text.afterLine_append_of_mem (by simp) x
  cases alone'
  · exact hfront
  · exact (congrArg (Text.dropEndWhile isIndent) hfront).trans
      (Text.dropEndWhile_append_of_endsLine hends x)

lemma tokensFrom_prependGap (hb : b.WellFormed d) (ending before : Text) (alone : Bool) :
    (b.prependGap (u ++ ['\n'])).tokensFrom ending d before alone =
      joinTokens (textTokens (kept alone false (u ++ ['\n'])))
        (b.tokensFrom ending d [] false) := by
  cases b with
  | last gap =>
    have hjoin : joinTokens (textTokens (kept alone false (u ++ ['\n']))) (textTokens gap ++ []) =
        textTokens (kept alone false (u ++ ['\n']) ++ gap) ++ [] :=
      joinTokens_textTokens (by simp)
    simp only [List.append_nil] at hjoin
    simp only [prependGap, tokensFrom, kept_append]
    exact hjoin.symm
  | tag gap s later =>
    have hstart : Text.lineIndent? ((u ++ ['\n'] ++ gap).reverse ++ before) =
        Text.lineIndent? (gap.reverse ++ []) := by
      simp only [List.reverse_append, List.reverse_cons, List.nil_append, List.append_assoc,
        List.cons_append, List.append_nil]
      exact Text.lineIndent?_append_lineFeed _ _
    have hnext := Text.lineIndent?_append_congr hstart (s.text d).reverse
    simp only [prependGap, tokensFrom, kept_append, s.token_congr hstart,
      standsAlone_congr _ hstart, later.tokensFrom_congr _ _ hnext]
    rw [joinTokens_textTokens]
    intro a ha
    cases ha
    exact hb.2.1.isText_token _

/-- The tokens of two cuts with a line feed at the seam are those of both, one behind the
other. -/
lemma tokensFrom_join (ha : a.WellFormed d) (hu : a.lastGap = u ++ ['\n'])
    (hb : b.WellFormed (a.delimiters d)) (ending before : Text) (alone : Bool) :
    (a.join b).tokensFrom ending d before alone =
      joinTokens (a.tokensFrom [] d before alone)
        (b.tokensFrom ending (a.delimiters d) [] false) := by
  induction a generalizing d before alone with
  | last gap =>
    obtain rfl : gap = u ++ ['\n'] := hu
    exact tokensFrom_prependGap hb ending before alone
  | tag gap s later ih =>
    -- The line of the tag ends before the seam, so the look ahead does not see what follows.
    have hmem : '\n' ∈ later.text (s.next d) :=
      (later.lastGap_suffix_text (s.next d)).subset (by rw [show later.lastGap = _ from hu]; simp)
    have halone : ∀ token start,
        StandsAlone token start ((later.join b).text (s.next d) ++ ending) ↔
        StandsAlone token start (later.text (s.next d) ++ []) := by
      intro token start
      rw [StandsAlone, StandsAlone, text_join, List.append_assoc,
        Text.atLineEnd_append_of_mem hmem, List.append_nil]
    simp only [Cut.join, tokensFrom, halone]
    rw [ih ha.2.2 hu hb, joinTokens_textTokens_cons (ha.2.1.isText_token _)]
    rfl

end Seam

end Cut

/-- The failure of a template where it stands behind a text: the lines of the text count. -/
def Failure.behind (a : Text) (f : Failure) : Failure :=
  ⟨⟨min Position.limit (f.position.line + a.count '\n'), f.position.column⟩, f.defect⟩

lemma Failure.behind_after {a : Text} (ha : Text.EndsLine a) (t : Text) (defect : Defect) :
    (⟨Position.start.after t, defect⟩ : Failure).behind a =
      ⟨Position.start.after (a ++ t), defect⟩ := by
  rw [Position.after_of_endsLine ha]
  rfl

section Templates

variable {d : Delimiters} {a b : Cut}

lemma tokenize_join (hd : d.Valid) (ha : a.WellFormed d) (hend : Text.EndsLine (a.text d))
    (hb : b.WellFormed (a.delimiters d)) :
    tokenize d (a.text d ++ b.text (a.delimiters d)) =
      .ok (joinTokens (a.tokens d) (b.tokens (a.delimiters d))) := by
  rcases Cut.exists_lastGap_of_endsLine hd ha hend with rfl | ⟨u, hu⟩
  · exact (tokenize_of_cut hd hb).trans (congrArg Except.ok (joinTokens_nil _).symm)
  · rw [← Cut.text_join, tokenize_of_cut hd (ha.join hd hu hb)]
    exact congrArg Except.ok (Cut.tokensFrom_join ha hu hb [] [] false)

lemma tokenize_join_broken (hd : d.Valid) (ha : a.WellFormed d)
    (hend : Text.EndsLine (a.text d)) (hb : b.WellFormed (a.delimiters d)) {defect : Defect}
    {read unread : Text} (hfirst : FirstAfter (b.delimiters (a.delimiters d)).opening b.lastGap)
    (hbroken : Broken (b.delimiters (a.delimiters d)) defect read unread) :
    tokenize d (a.text d ++ (b.text (a.delimiters d) ++
        ((b.delimiters (a.delimiters d)).opening ++ read ++ unread))) =
      .error ⟨Position.start.after (a.text d ++ (b.text (a.delimiters d) ++
        ((b.delimiters (a.delimiters d)).opening ++ read))), defect⟩ := by
  rcases Cut.exists_lastGap_of_endsLine hd ha hend with rfl | ⟨u, hu⟩
  · exact tokenize_of_broken hd hb hfirst hbroken
  · have h := tokenize_of_broken hd (ha.join hd hu hb)
      (Cut.firstAfter_lastGap_join hd ha hu hfirst) ((Cut.delimiters_join a b d).symm ▸ hbroken)
    simp only [Cut.text_join, Cut.delimiters_join, List.append_assoc] at h ⊢
    exact h

end Templates

/-- Lexing composes at line boundaries: behind a template that ends a line, a template gives the
tokens, or the failure, that it gives alone under the pair then in effect. -/
theorem tokenize_append_of_endsLine {d : Delimiters} (hd : d.Valid) {a : Text}
    (ha : Text.EndsLine a) {ta : List Token} (hta : tokenize d a = .ok ta) (b : Text) :
    (∀ tb, tokenize (pairAfter d ta) b = .ok tb → tokenize d (a ++ b) = .ok (joinTokens ta tb)) ∧
      ∀ f, tokenize (pairAfter d ta) b = .error f → tokenize d (a ++ b) = .error (f.behind a) := by
  obtain ⟨cut, hcut, rfl, rfl⟩ := exists_cut_of_tokenize_eq_ok hd hta
  have hpair : pairAfter d (cut.tokens d) = cut.delimiters d :=
    Cut.pairAfter_tokensFrom hcut [] [] false
  have hd' := hcut.valid_delimiters hd
  rw [hpair]
  rcases exists_cut hd' b with
    ⟨cutb, hb, rfl⟩ | ⟨cutb, defect, read, unread, hb, hfirst, hbroken, rfl⟩
  · rw [tokenize_of_cut hd' hb, tokenize_join hd hcut ha hb]
    constructor
    · rintro tb ⟨⟩
      rfl
    · rintro f ⟨⟩
  · rw [tokenize_of_broken hd' hb hfirst hbroken,
      tokenize_join_broken hd hcut ha hb hfirst hbroken]
    constructor
    · rintro tb ⟨⟩
    · rintro f ⟨⟩
      rw [Failure.behind_after ha]

/-- Behind a line that changes the delimiters, tags are bounded by the new pair, and an unclosed
one is reported on the line where it ends in the whole. -/
theorem tokenize_behind_directive :
    tokenize .braces ("\x7b\x7b=< >=\x7d\x7d\ny\n".toList ++ "<z>".toList) =
        .ok [.setDelimiters ⟨['<'], ['>']⟩, .text ['y', '\n'], .escaped ['z']] ∧
      tokenize .braces ("\x7b\x7b=< >=\x7d\x7d\ny\n".toList ++ "<z".toList) =
        .error ⟨⟨3, 3⟩, .unclosed⟩ := by
  have hline : Text.EndsLine "\x7b\x7b=< >=\x7d\x7d\ny\n".toList :=
    .inr ⟨"\x7b\x7b=< >=\x7d\x7d\ny".toList, by decide⟩
  have hread : tokenize .braces "\x7b\x7b=< >=\x7d\x7d\ny\n".toList =
      .ok [.setDelimiters ⟨['<'], ['>']⟩, .text ['y', '\n']] := by decide +kernel
  have hjoin := tokenize_append_of_endsLine Delimiters.valid_braces hline hread
  exact ⟨(hjoin _).1 [.escaped ['z']] (by decide +kernel),
    (hjoin _).2 ⟨⟨1, 3⟩, .unclosed⟩ (by decide +kernel)⟩

end Mustache
