import Mustache.Proofs.CanonicalTag
import Mustache.Proofs.Followed

/-! Tags that are spelled in different ways. What precedes and follows a tag in a template sees of
it only that it begins and ends with a character that is not blank, so another spelling of the same
tag changes no other token. -/
namespace Mustache

/-- A text that is one tag, read as a token: the tag starts it, and nothing follows that could go
away with the tag. -/
structure IsTag (d : Delimiters) (t : Text) (token : Token) : Prop where
  opens : d.opening <+: t
  ends : ∃ u c, t = u ++ [c] ∧ isBlank c = false
  read : tokenize d t = .ok [token]

/-- Two results are the same tokens, or failures over the same defect. -/
def Agree (a b : Except Failure (List Token)) : Prop :=
  (∃ tokens, a = .ok tokens ∧ b = .ok tokens) ∨
    ∃ f f', a = .error f ∧ b = .error f' ∧ f.defect = f'.defect

/-- Spellings that mean the same: names between other blanks, other remarks, the two ways to write
an unescaped value, and directives with the same pair. -/
inductive Respelled : Spelling → Spelling → Prop
  | name {padding padding' content content' : Text} {sigil : Char} (hsigil : sigil ∈ Tag.signs)
      (hdirective : sigil ≠ '=') (hname : Text.trim content = Text.trim content') :
      Respelled ⟨padding, sigil, content⟩ ⟨padding', sigil, content'⟩
  | escaped {padding padding' content content' : Text} {sigil : Char} (hsigil : sigil ∉ Tag.signs)
      (hname : Text.trim (sigil :: content) = Text.trim (sigil :: content')) :
      Respelled ⟨padding, sigil, content⟩ ⟨padding', sigil, content'⟩
  | comment {padding padding' content content' : Text} :
      Respelled ⟨padding, '!', content⟩ ⟨padding', '!', content'⟩
  | brace {padding padding' content content' : Text}
      (hname : Text.trim content = Text.trim content') :
      Respelled ⟨padding, '\x7b', content⟩ ⟨padding', '&', content'⟩
  | directive {padding padding' content content' : Text}
      (hpair : Delimiters.ofDirective? content = Delimiters.ofDirective? content') :
      Respelled ⟨padding, '=', content⟩ ⟨padding', '=', content'⟩

namespace Spelling

variable {d : Delimiters} {s s' : Spelling}

lemma token_eq_of_respelled (h : Respelled s s') : s.token = s'.token := by
  funext before
  cases h with
  | @name _ _ _ _ sigil hsigil hdirective hname =>
    simp only [Tag.signs, List.mem_cons, List.not_mem_nil, or_false] at hsigil
    rcases hsigil with rfl | rfl | rfl | rfl | rfl | rfl | rfl | rfl | rfl | rfl
    · rfl
    · exact absurd rfl hdirective
    all_goals simp only [token_eq, Tag.token?, hname]
  | escaped hsigil hname =>
    simp only [token_eq, Tag.token?_of_notMem hsigil, hname]
  | comment => rfl
  | brace hname => simp only [token_eq, Tag.token?, hname]
  | directive hpair => simp only [token_eq, Tag.token?, hpair]

/-- Where two tags mean the same at the start of a template, they do so everywhere. -/
lemma token_eq_of_token_nil (h : s.token [] = s'.token []) : s.token = s'.token := by
  funext before
  by_cases hname : ∃ name i, s.token [] = .inclusion name i
  · obtain ⟨name, i, hname⟩ := hname
    rw [token_of_inclusion hname, token_of_inclusion (h.symm.trans hname)]
  · simp only [not_exists] at hname
    have hname' : ∀ name i, s'.token [] ≠ .inclusion name i := h ▸ hname
    rw [token_of_ne_inclusion hname, token_of_ne_inclusion hname', h]

lemma next_eq_of_token_eq (hs : s.WellFormed d) (hs' : s'.WellFormed d)
    (h : s.token = s'.token) : s.next d = s'.next d := by
  rw [← hs.delimitersAfter_token [], h, hs'.delimitersAfter_token]

end Spelling

namespace Cut

variable {d : Delimiters}

lemma kept_nil (alone alone' : Bool) : kept alone alone' [] = [] := by
  cases alone <;> cases alone' <;> rfl

/-- Behind a tag, what is left of a template without leaving a token is blank. -/
lemma exists_blanks_of_tokensFrom_eq_nil {cut : Cut} {before : Text} {alone : Bool}
    (halone : alone = true → Text.AtLineEnd (cut.text d))
    (h : cut.tokensFrom [] d before alone = []) :
    ∃ gap, cut = .last gap ∧ ∀ c ∈ gap, isBlank c = true := by
  cases cut with
  | tag gap s later => simp [tokensFrom] at h
  | last gap =>
    refine ⟨gap, rfl, ?_⟩
    have hkept : kept alone false gap = [] := by
      by_contra hne
      rw [tokensFrom, textTokens_of_ne_nil hne] at h
      cases h
    cases alone with
    | false =>
      have hgap : gap = [] := hkept
      simp [hgap]
    | true =>
      have hline : Text.afterLine gap = [] := hkept
      obtain ⟨w, r, hgap, hw, hr⟩ := halone rfl
      have hfeed : '\n' ∉ w := Text.not_lineFeed_mem Text.isLineBlank_lineFeed hw
      have hlast : r = [] ∨ r = ['\n'] := by
        rcases hr with hr | ⟨q, rfl⟩
        · exact .inl hr
        · rw [show gap = w ++ '\n' :: q from hgap, Text.afterLine_append_lineFeed hfeed] at hline
          exact .inr (by rw [hline])
      intro c hc
      rw [show gap = w ++ r from hgap, List.mem_append] at hc
      rcases hc with hc | hc
      · exact Text.isBlank_of_isLineBlank (hw c hc)
      · rcases hlast with rfl | rfl
        · cases hc
        · rw [List.mem_singleton.1 hc]
          rfl

/-- A tag in front of a cut hides all but its first character from what precedes it, and all but
its last from what follows. -/
lemma tokensFrom_respell (earlier : Cut) {s s' : Spelling} (hd : (earlier.delimiters d).Valid)
    (htoken : s.token = s'.token)
    (hnext : s.next (earlier.delimiters d) = s'.next (earlier.delimiters d)) (later : Cut)
    (ending before : Text) (alone : Bool) :
    (earlier.join (.tag [] s later)).tokensFrom ending d before alone =
      (earlier.join (.tag [] s' later)).tokensFrom ending d before alone := by
  induction earlier generalizing d before alone with
  | last gap =>
    change d.Valid at hd
    change s.next d = s'.next d at hnext
    have hlook : ∀ start, Text.lineIndent? ((s.text d).reverse ++ start) =
        Text.lineIndent? ((s'.text d).reverse ++ start) := fun start =>
      (s.lineIndent?_text hd start).trans (s'.lineIndent?_text hd start).symm
    simp only [join, prependGap, tokensFrom, htoken, hnext]
    rw [later.tokensFrom_congr _ _ (hlook _)]
  | tag gap s₀ later₀ ih =>
    have halone : ∀ token start,
        StandsAlone token start
            ((later₀.join (.tag [] s later)).text (s₀.next d) ++ ending) ↔
          StandsAlone token start
            ((later₀.join (.tag [] s' later)).text (s₀.next d) ++ ending) := by
      intro token start
      obtain ⟨c, u, hopen, hc⟩ := exists_cons_of_isMark hd.1
      have hsplit : ∀ sp : Spelling, ∃ y,
          (later₀.join (.tag [] sp later)).text (s₀.next d) ++ ending =
            later₀.text (s₀.next d) ++ c :: y := by
        intro sp
        obtain ⟨v, hv⟩ := sp.opening_prefix_text (later₀.delimiters (s₀.next d))
        refine ⟨u ++ v ++ later.text (sp.next (later₀.delimiters (s₀.next d))) ++ ending, ?_⟩
        rw [text_join, text, ← hv, show (later₀.delimiters (s₀.next d)).opening = c :: u from hopen]
        simp
      obtain ⟨y, hy⟩ := hsplit s
      obtain ⟨y', hy'⟩ := hsplit s'
      rw [StandsAlone, StandsAlone, hy, hy', Text.atLineEnd_append_cons_iff hc,
        Text.atLineEnd_append_cons_iff hc]
    simp only [join, tokensFrom, halone]
    rw [ih hd hnext]

end Cut

section Contexts

variable {d d₀ : Delimiters} {s s' : Spelling} {t : Text} {token : Token} {pre : Cut}

/-- A spelling stands for one tag. -/
lemma isTag_text (hd : d.Valid) (hs : s.WellFormed d) : IsTag d (s.text d) (s.token []) where
  opens := s.opening_prefix_text d
  ends := s.exists_concat_text hd
  read := by
    have hcut : (Cut.tag [] s (.last [])).WellFormed d :=
      ⟨firstAfter_nil _, hs, Cut.wellFormed_empty (hs.valid_next hd)⟩
    have htokens : (Cut.tag [] s (.last [])).tokens d = [s.token []] := by
      simp only [Cut.tokens, Cut.tokensFrom, Cut.kept_nil, Cut.textTokens_nil]
      rfl
    rw [← htokens, ← tokenize_of_cut hd hcut]
    simp [Cut.text]

/-- A text that is one tag has a spelling. -/
lemma IsTag.exists_spelling (hd : d.Valid) (h : IsTag d t token) :
    ∃ s : Spelling, s.WellFormed d ∧ s.text d = t ∧ s.token [] = token := by
  obtain ⟨cut, hcut, rfl, htokens⟩ := exists_cut_of_tokenize_eq_ok hd h.read
  cases cut with
  | last gap => exact absurd h.opens.isInfix hcut
  | tag gap s later =>
    obtain ⟨hfirst, hs, -⟩ := hcut
    obtain rfl : gap = [] := by
      by_contra hne
      have hopens := h.opens
      obtain ⟨y, hy⟩ := s.opening_prefix_text d
      rw [Cut.text, ← hy, ← List.append_assoc, List.append_assoc] at hopens
      exact hfirst.not_prefix hne _ hopens
    rw [Cut.tokens, Cut.tokensFrom, Cut.kept_nil] at htokens
    obtain ⟨htoken, hlater⟩ := List.cons.inj htokens
    refine ⟨s, hs, ?_, htoken⟩
    -- What follows the tag leaves no token, so it is blank, and the text does not end with a blank.
    have halone : decide (StandsAlone (s.token []) [] (later.text (s.next d) ++ [])) = true →
        Text.AtLineEnd (later.text (s.next d)) := by
      rw [decide_eq_true_iff, List.append_nil]
      exact fun hstands => hstands.2.2
    obtain ⟨gap, rfl, hblank⟩ := Cut.exists_blanks_of_tokensFrom_eq_nil halone hlater
    obtain ⟨u, c, htext, hc⟩ := h.ends
    rcases List.eq_nil_or_concat' gap with rfl | ⟨v, b, rfl⟩
    · simp [Cut.text]
    · rw [Cut.text, Cut.text, ← List.append_assoc] at htext
      obtain ⟨-, hlast⟩ := List.append_inj' htext rfl
      rw [← (List.cons.inj hlast).1, hblank b (by simp)] at hc
      cases hc

/-- Behind a cut that a tag can follow, it does not matter how the tag is spelled. -/
lemma agree_of_cut (hd : d₀.Valid) (hpre : pre.WellFormed d₀)
    (hfirst : FirstAfter (pre.delimiters d₀).opening pre.lastGap)
    (hs : s.WellFormed (pre.delimiters d₀)) (hs' : s'.WellFormed (pre.delimiters d₀))
    (htoken : s.token = s'.token) (tail : Text) :
    Agree (tokenize d₀ (pre.text d₀ ++ s.text (pre.delimiters d₀) ++ tail))
      (tokenize d₀ (pre.text d₀ ++ s'.text (pre.delimiters d₀) ++ tail)) := by
  have hd' := hpre.valid_delimiters hd
  have hnext := Spelling.next_eq_of_token_eq hs hs' htoken
  rcases exists_cut (hs.valid_next hd') tail with
    ⟨later, hlater, rfl⟩ | ⟨later, defect, read, unread, hlater, hlast, hbroken, rfl⟩
  · have hread : ∀ sp : Spelling, sp.WellFormed (pre.delimiters d₀) →
        sp.next (pre.delimiters d₀) = s.next (pre.delimiters d₀) →
        tokenize d₀ (pre.text d₀ ++ sp.text (pre.delimiters d₀) ++
          later.text (s.next (pre.delimiters d₀))) =
            .ok ((pre.join (.tag [] sp later)).tokens d₀) := by
      intro sp hsp hspnext
      rw [← tokenize_of_cut hd (hpre.join_tag hfirst hsp (hspnext ▸ hlater)), Cut.text_join,
        Cut.text, hspnext]
      simp only [List.nil_append, List.append_assoc]
    refine .inl ⟨_, hread s hs rfl, ?_⟩
    rw [hread s' hs' hnext.symm]
    exact congrArg Except.ok (pre.tokensFrom_respell hd' htoken hnext later [] [] false).symm
  · have hfail : ∀ sp : Spelling, sp.WellFormed (pre.delimiters d₀) →
        sp.next (pre.delimiters d₀) = s.next (pre.delimiters d₀) →
        ∃ f, tokenize d₀ (pre.text d₀ ++ sp.text (pre.delimiters d₀) ++
          (later.text (s.next (pre.delimiters d₀)) ++
            ((later.delimiters (s.next (pre.delimiters d₀))).opening ++ read ++ unread))) =
              .error f ∧ f.defect = defect := by
      intro sp hsp hspnext
      have hdelimiters : (pre.join (.tag [] sp later)).delimiters d₀ =
          later.delimiters (s.next (pre.delimiters d₀)) := by
        rw [Cut.delimiters_join, Cut.delimiters, hspnext]
      have hlast' : FirstAfter ((pre.join (.tag [] sp later)).delimiters d₀).opening
          (pre.join (.tag [] sp later)).lastGap := by
        rw [hdelimiters, Cut.lastGap_join_tag]
        exact hlast
      have hbroken' : Broken ((pre.join (.tag [] sp later)).delimiters d₀) defect read unread :=
        hdelimiters ▸ hbroken
      have hfails :=
        tokenize_of_broken hd (hpre.join_tag hfirst hsp (hspnext ▸ hlater)) hlast' hbroken'
      refine ⟨_, Eq.trans ?_ hfails, rfl⟩
      rw [hdelimiters, Cut.text_join, Cut.text, hspnext]
      simp only [List.nil_append, List.append_assoc]
    obtain ⟨f, hf, rfl⟩ := hfail s hs rfl
    obtain ⟨f', hf', hdefect⟩ := hfail s' hs' hnext.symm
    exact .inr ⟨f, f', hf, hf', hdefect.symm⟩

end Contexts

/-- The spelling of a tag is irrelevant to everything around it: where a run comes to a tag, any
other text for the same tag leaves all tokens, and any failure's defect, as they are. Blanks inside
a tag, the remark of a comment and the two ways to write an unescaped value are only spelling. -/
theorem tokenize_respell {d : Delimiters} (hd : d.Valid) :
    (∀ (t t' : Text) (token : Token), IsTag d t token → IsTag d t' token →
      ∀ (d₀ : Delimiters) (p tail : Text) (s : Lexer), d₀.Valid →
        (Lexer.start d₀ (.ofText (p ++ t ++ tail))).Reaches s →
        s.reader.consumed = p.reverse → s.delimiters = d →
        Agree (tokenize d₀ (p ++ t ++ tail)) (tokenize d₀ (p ++ t' ++ tail))) ∧
    ∀ s s' : Spelling, s.WellFormed d → s'.WellFormed d → Respelled s s' →
      ∃ token, IsTag d (s.text d) token ∧ IsTag d (s'.text d) token := by
  refine ⟨?_, ?_⟩
  · rintro t t' token ht ht' d₀ p tail s hd₀ hreach hconsumed rfl
    obtain ⟨sp, hsp, rfl, htoken⟩ := ht.exists_spelling hd
    obtain ⟨sp', hsp', rfl, rfl⟩ := ht'.exists_spelling hd
    obtain ⟨pre, hpre⟩ := Lexer.exists_follows_of_reaches hd₀ hreach
    have hstart : (Lexer.start d₀ (.ofText (p ++ sp.text s.delimiters ++ tail))).Runs
        (p ++ sp.text s.delimiters ++ tail) := ⟨Reader.at_ofText _, hd₀⟩
    have hrest : s.reader.rest = sp.text s.delimiters ++ tail := by
      have hsource := (Reader.at_iff.1 (hstart.reaches hreach).place).1
      rw [Reader.source, hconsumed, List.reverse_reverse, List.append_assoc] at hsource
      exact List.append_cancel_left hsource
    have hopen : s.reader.startsWith s.delimiters.opening = true := by
      rw [Reader.startsWith, List.isPrefixOf_iff_prefix, hrest]
      exact ht.opens.trans (List.prefix_append _ _)
    have hfirst := hpre.firstAfter hd hopen
    have hp : p = pre.text d₀ := by
      rw [← List.reverse_inj, ← hconsumed, hpre.consumed]
    rw [hpre.delimiters] at hfirst hsp hsp' ⊢
    rw [hp]
    exact agree_of_cut hd₀ hpre.wellFormed hfirst hsp hsp'
      (Spelling.token_eq_of_token_nil htoken) tail
  · intro s s' hs hs' hsame
    exact ⟨s.token [], isTag_text hd hs, Spelling.token_eq_of_respelled hsame ▸ isTag_text hd hs'⟩

/-- A value in three braces and the same value behind a sign, with a line break in the tag: the
block behind it does not come to stand alone. -/
theorem tokenize_respell_unescaped :
    Agree (tokenize .braces "x\x7b\x7b\x7ba\x7d\x7d\x7d \x7b\x7b#b\x7d\x7d\n".toList)
        (tokenize .braces "x\x7b\x7b& a\n\x7d\x7d \x7b\x7b#b\x7d\x7d\n".toList) ∧
      ∃ token, IsTag .braces "\x7b\x7b! a\x7d\x7d".toList token ∧
        IsTag .braces "\x7b\x7b!\n\x7d\x7d".toList token := by
  have hrespell := tokenize_respell Delimiters.valid_braces
  have hvalue : IsTag .braces "\x7b\x7b\x7ba\x7d\x7d\x7d".toList (.unescaped ['a']) :=
    ⟨by decide, ⟨"\x7b\x7b\x7ba\x7d\x7d".toList, '\x7d', by decide⟩, by decide +kernel⟩
  have hvalue' : IsTag .braces "\x7b\x7b& a\n\x7d\x7d".toList (.unescaped ['a']) :=
    ⟨by decide, ⟨"\x7b\x7b& a\n\x7d".toList, '\x7d', by decide⟩, by decide +kernel⟩
  refine ⟨hrespell.1 _ _ _ hvalue hvalue' .braces ['x'] " \x7b\x7b#b\x7d\x7d\n".toList
    ⟨⟨['x'], "\x7b\x7b\x7ba\x7d\x7d\x7d \x7b\x7b#b\x7d\x7d\n".toList, ⟨1, 2⟩⟩, .braces,
      [.text ['x']], []⟩ Delimiters.valid_braces (.single ⟨by decide, by decide +kernel⟩) rfl rfl,
    ?_⟩
  exact hrespell.2 ⟨[], '!', [' ', 'a']⟩ ⟨[], '!', ['\n']⟩ (by decide) (by decide) .comment

end Mustache
