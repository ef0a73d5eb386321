import Mustache.Proofs.Grammar

/-! Line ends written with a carriage return. Putting one in front of every line feed maps the
cut of a template to a cut of the changed template, and changes nothing but texts and names. -/
namespace Mustache

namespace Text

/-- A text is a line, or a line, its line feed and a text. -/
@[elab_as_elim] lemma lineInduction {motive : Text → Prop}
    (line : ∀ t, '\n' ∉ t → motive t)
    (lineFeed : ∀ w t, '\n' ∉ w → motive t → motive (w ++ '\n' :: t)) (t : Text) : motive t := by
  induction hn : t.length using Nat.strong_induction_on generalizing t with
  | _ n ih =>
    by_cases h : '\n' ∈ t
    · obtain ⟨w, u, rfl, hw⟩ := List.eq_append_cons_of_mem h
      refine lineFeed w u hw (ih u.length ?_ u rfl)
      rw [← hn]
      simp only [List.length_append, List.length_cons]
      omega
    · exact line t h

/-- A carriage return in front of every line feed. -/
def crlf (t : Text) : Text := t.flatMap fun c => if c = '\n' then ['\r', '\n'] else [c]

@[simp] lemma crlf_nil : crlf [] = [] := rfl

@[simp] lemma crlf_append (t u : Text) : crlf (t ++ u) = crlf t ++ crlf u := List.flatMap_append

@[simp] lemma crlf_lineFeed (t : Text) : crlf ('\n' :: t) = '\r' :: '\n' :: crlf t := rfl

lemma crlf_cons {c : Char} (hc : c ≠ '\n') (t : Text) : crlf (c :: t) = c :: crlf t := by
  simp [crlf, hc]

lemma crlf_of_notMem {t : Text} (ht : '\n' ∉ t) : crlf t = t := by
  induction t with
  | nil => rfl
  | cons c t ih =>
    rw [List.mem_cons, not_or] at ht
    rw [crlf_cons (Ne.symm ht.1), ih ht.2]

lemma crlf_of_isMark {p : Text} (hp : Delimiters.isMark p = true) : crlf p = p :=
  crlf_of_notMem (notMem_of_isMark hp rfl)

lemma crlf_eq_nil_iff {t : Text} : crlf t = [] ↔ t = [] := by
  cases t with
  | nil => simp
  | cons c t => by_cases hc : c = '\n' <;> simp [crlf, hc]

/-- A class that holds of both characters of a line end, or of neither, is not disturbed. -/
lemma forall_mem_crlf {q : Char → Bool} (hq : q '\n' = true → q '\r' = true) {t : Text}
    (ht : ∀ c ∈ t, q c = true) : ∀ c ∈ crlf t, q c = true := by
  intro c hc
  obtain ⟨a, ha, hca⟩ := List.mem_flatMap.1 hc
  by_cases h : a = '\n'
  · subst h
    have hlf := ht _ ha
    simp only [if_true, List.mem_cons, List.not_mem_nil, or_false] at hca
    rcases hca with rfl | rfl
    · exact hq hlf
    · exact hlf
  · rw [if_neg h, List.mem_singleton] at hca
    exact hca ▸ ht a ha

lemma dropWhile_crlf {q : Char → Bool} (hq : q '\r' = q '\n') (t : Text) :
    (crlf t).dropWhile q = crlf (t.dropWhile q) := by
  induction t with
  | nil => rfl
  | cons c t ih =>
    by_cases hc : c = '\n'
    · subst hc
      cases hlf : q '\n' <;> simp [hq, hlf, ih]
    · rw [crlf_cons hc]
      cases hqc : q c <;> simp [hqc, ih, crlf_cons hc]

lemma takeWhile_crlf {q : Char → Bool} (hq : q '\r' = q '\n') (t : Text) :
    (crlf t).takeWhile q = crlf (t.takeWhile q) := by
  induction t with
  | nil => rfl
  | cons c t ih =>
    by_cases hc : c = '\n'
    · subst hc
      cases hlf : q '\n' <;> simp [hq, hlf, ih]
    · rw [crlf_cons hc]
      cases hqc : q c <;> simp [hqc, ih, crlf_cons hc]

lemma dropEndWhile_crlf {q : Char → Bool} (hq : q '\n' = true → q '\r' = true) (t : Text) :
    dropEndWhile q (crlf t) = crlf (dropEndWhile q t) := by
  obtain ⟨w, ht, hw⟩ := exists_dropEndWhile_append q t
  have hstrip : dropEndWhile q (crlf t) = dropEndWhile q (crlf (dropEndWhile q t)) := by
    conv_lhs => rw [ht, crlf_append]
    exact dropEndWhile_append_of_all (forall_mem_crlf hq hw) _
  rw [hstrip]
  rcases dropEndWhile_eq_nil_or_concat q t with hk | ⟨k, c, hk, hc⟩
  · rw [hk]
    rfl
  · rw [hk, crlf_append]
    by_cases hlf : c = '\n'
    · subst hlf
      rw [crlf_lineFeed, ← List.singleton_append, ← List.append_assoc]
      exact dropEndWhile_concat_of_not hc _
    · rw [crlf_cons hlf]
      exact dropEndWhile_concat_of_not hc _

lemma trim_crlf (t : Text) : trim (crlf t) = crlf (trim t) := by
  rw [trim, dropWhile_crlf rfl, dropEndWhile_crlf (fun _ => rfl)]
  rfl

lemma filter_crlf {q : Char → Bool} (hr : q '\r' = false) (hn : q '\n' = false) (t : Text) :
    (crlf t).filter q = t.filter q := by
  induction t with
  | nil => rfl
  | cons c t ih =>
    by_cases hc : c = '\n'
    · subst hc
      simp [hr, hn, ih]
    · rw [crlf_cons hc, List.filter_cons, List.filter_cons, ih]

lemma mem_crlf_iff {c : Char} (hc : c ≠ '\r') {t : Text} : c ∈ crlf t ↔ c ∈ t := by
  induction t with
  | nil => simp
  | cons a t ih =>
    by_cases ha : a = '\n'
    · subst ha
      simp [hc, ih]
    · simp [crlf_cons ha, ih]

/-! Searches and looks around a place are not disturbed either. -/

section Search

variable {p : Text} (hp : Delimiters.isMark p = true)
include hp

lemma infix_crlf_iff (t : Text) : p <:+: crlf t ↔ p <:+: t := by
  have hne := ne_nil_of_isMark hp
  have hr : '\r' ∉ p := notMem_of_isMark hp rfl
  have hn : '\n' ∉ p := notMem_of_isMark hp rfl
  induction t using lineInduction with
  | line t ht => rw [crlf_of_notMem ht]
  | lineFeed w t hw ih =>
    have hlf : p <:+: '\n' :: crlf t ↔ p <:+: t := by
      have h := infix_append_cons_iff (u := []) (v := crlf t) hn
      simpa [hne, ih] using h
    rw [crlf_append, crlf_lineFeed, crlf_of_notMem hw, infix_append_cons_iff hr, hlf,
      infix_append_cons_iff hn]

lemma firstAfter_crlf_iff (t : Text) : FirstAfter p (crlf t) ↔ FirstAfter p t := by
  have hne := ne_nil_of_isMark hp
  have hr : '\r' ∉ p := notMem_of_isMark hp rfl
  have hn : '\n' ∉ p := notMem_of_isMark hp rfl
  induction t using lineInduction with
  | line t ht => rw [crlf_of_notMem ht]
  | lineFeed w t hw ih =>
    have hlf : FirstAfter p ('\n' :: crlf t) ↔ FirstAfter p t := by
      have h := firstAfter_append_cons_iff (u := []) (v := crlf t) hn
      simpa [hne, ih] using h
    rw [crlf_append, crlf_lineFeed, crlf_of_notMem hw, firstAfter_append_cons_iff hr, hlf,
      firstAfter_append_cons_iff hn]

end Search

lemma lineIndent?_crlf {x y : Text} (h : lineIndent? x = lineIndent? y) (t : Text) :
    lineIndent? ((crlf t).reverse ++ x) = lineIndent? (t.reverse ++ y) := by
  induction t using lineInduction generalizing x y with
  | line t ht =>
    rw [crlf_of_notMem ht]
    exact lineIndent?_append_congr h _
  | lineFeed w t hw ih =>
    simp only [crlf_append, crlf_lineFeed, List.reverse_append, List.reverse_cons,
      List.append_assoc, List.cons_append, List.nil_append]
    apply ih
    rw [lineIndent?_lineFeed, lineIndent?_lineFeed]

lemma atLineEnd_append_lineFeed_iff {w : Text} (hw : '\n' ∉ w) (t : Text) :
    AtLineEnd (w ++ '\n' :: t) ↔ ∀ c ∈ w, isLineBlank c = true := by
  rw [atLineEnd_iff_breaks, List.dropWhile_append]
  cases hdrop : w.dropWhile isLineBlank with
  | nil => simpa using List.dropWhile_eq_nil_iff.1 hdrop
  | cons c u =>
    have hmem : c ∈ w := (List.dropWhile_suffix _).subset (hdrop ▸ List.mem_cons_self)
    have hc : isLineBlank c = false := by
      have h := List.head?_dropWhile_not isLineBlank w
      simpa [hdrop] using h
    have hne : c ≠ '\n' := fun h => hw (h ▸ hmem)
    simp only [List.isEmpty_cons, Bool.false_eq_true, if_false, List.cons_append, breaks_cons, hne,
      false_iff]
    exact fun h => absurd (h c hmem) (by simp [hc])

lemma atLineEnd_crlf_iff (t : Text) : AtLineEnd (crlf t) ↔ AtLineEnd t := by
  induction t using lineInduction with
  | line t ht => rw [crlf_of_notMem ht]
  | lineFeed w t hw ih =>
    have hwr : '\n' ∉ w ++ ['\r'] := by simp [hw]
    have h : crlf (w ++ '\n' :: t) = (w ++ ['\r']) ++ '\n' :: crlf t := by
      simp [crlf_of_notMem hw]
    rw [h, atLineEnd_append_lineFeed_iff hwr, atLineEnd_append_lineFeed_iff hw]
    simp [isLineBlank, or_imp, forall_and]

lemma afterLine_crlf (t : Text) : afterLine (crlf t) = crlf (afterLine t) := by
  induction t using lineInduction with
  | line t ht => rw [crlf_of_notMem ht, afterLine_of_notMem ht, crlf_nil]
  | lineFeed w t hw ih =>
    have hwr : '\n' ∉ w ++ ['\r'] := by simp [hw]
    have h : crlf (w ++ '\n' :: t) = (w ++ ['\r']) ++ '\n' :: crlf t := by
      simp [crlf_of_notMem hw]
    rw [h, afterLine_append_lineFeed hwr, afterLine_append_lineFeed hw]

end Text

lemma Delimiters.ofDirective?_crlf (content : Text) :
    ofDirective? (Text.crlf content) = ofDirective? content := by
  have hword : '\n' ∉ (content.dropWhile isBlank).takeWhile (!isBlank ·) := by
    intro h
    exact absurd (List.mem_takeWhile_imp h) (by decide)
  have hsign : ∀ t : Text, (Text.crlf t).contains '=' = t.contains '=' := by
    intro t
    rw [Bool.eq_iff_iff, List.contains_iff_mem, List.contains_iff_mem,
      Text.mem_crlf_iff (by decide)]
  simp only [ofDirective?, Text.dropWhile_crlf (q := isBlank) rfl,
    Text.dropWhile_crlf (q := (!isBlank ·)) rfl, Text.takeWhile_crlf (q := (!isBlank ·)) rfl,
    Text.takeWhile_crlf (q := (· != '=')) rfl, Text.filter_crlf (q := (!isBlank ·)) rfl rfl,
    Text.crlf_of_notMem hword, hsign]

/-- A token whose texts and names have carriage returns. -/
def Token.crlf : Token → Token
  | .text content => .text (Text.crlf content)
  | .escaped name => .escaped (Text.crlf name)
  | .unescaped name => .unescaped (Text.crlf name)
  | .comment => .comment
  | .inclusion name indentation => .inclusion (Text.crlf name) indentation
  | .block mark name => .block mark (Text.crlf name)
  | .setDelimiters pair => .setDelimiters pair

lemma Token.canStandAlone_crlf (token : Token) :
    token.crlf.canStandAlone = token.canStandAlone := by
  cases token <;> rfl

lemma Tag.token?_crlf {tag : Tag} (hs : tag.sigil ≠ '\n') (indent : Option Text) :
    Tag.token? ⟨tag.sigil, Text.crlf tag.content⟩ indent = (tag.token? indent).map Token.crlf := by
  obtain ⟨sigil, content⟩ := tag
  have hcons :
      Text.trim (sigil :: Text.crlf content) = Text.crlf (Text.trim (sigil :: content)) := by
    rw [← Text.trim_crlf, Text.crlf_cons hs]
  unfold token?
  simp only [Text.trim_crlf, Delimiters.ofDirective?_crlf]
  split
  case h_10 => cases Delimiters.ofDirective? content <;> rfl
  case h_11 => rw [hcons]; rfl
  all_goals rfl

namespace Spelling

variable {d : Delimiters} {s : Spelling}

/-- A spelling with carriage returns in its blanks and its content. -/
def crlf (s : Spelling) : Spelling :=
  ⟨Text.crlf s.padding, s.tag.sigil, Text.crlf s.tag.content⟩

lemma WellFormed.sigil_ne (hs : s.WellFormed d) : s.tag.sigil ≠ '\n' :=
  Text.ne_lineFeed_of_not_blank hs.sigil

lemma next_crlf (s : Spelling) (d : Delimiters) : s.crlf.next d = s.next d := by
  simp only [next, crlf, Delimiters.ofDirective?_crlf]

lemma WellFormed.text_crlf (hs : s.WellFormed d) (hd : d.Valid) :
    s.crlf.text d = Text.crlf (s.text d) := by
  have hbrace : Text.crlf s.brace = s.brace := by
    apply Text.crlf_of_notMem
    rw [brace]
    split <;> simp
  have hbrace' : s.crlf.brace = s.brace := rfl
  simp only [text, Text.crlf_append, Text.crlf_cons hs.sigil_ne, Text.crlf_of_isMark hd.1,
    Text.crlf_of_isMark hd.2, hbrace, hbrace']
  rfl

lemma WellFormed.crlf (hs : s.WellFormed d) (hd : d.Valid) : s.crlf.WellFormed d where
  padding := Text.forall_mem_crlf (fun _ => rfl) hs.padding
  sigil := hs.sigil
  content := (Text.firstAfter_crlf_iff hd.2 _).2 hs.content
  directive := fun h => by
    rw [Spelling.crlf, Delimiters.ofDirective?_crlf]
    exact hs.directive h

lemma WellFormed.token_crlf (hs : s.WellFormed d) {x y : Text}
    (h : Text.lineIndent? x = Text.lineIndent? y) : s.crlf.token x = (s.token y).crlf := by
  rw [token_eq, h, Spelling.crlf, Tag.token?_crlf hs.sigil_ne, hs.token?]
  rfl

end Spelling

namespace Cut

/-- A cut with carriage returns in its gaps and tags. -/
def crlf : Cut → Cut
  | .last gap => .last (Text.crlf gap)
  | .tag gap s later => .tag (Text.crlf gap) s.crlf later.crlf

variable {d : Delimiters} {cut : Cut}

lemma delimiters_crlf (cut : Cut) (d : Delimiters) : cut.crlf.delimiters d = cut.delimiters d := by
  induction cut generalizing d with
  | last gap => rfl
  | tag gap s later ih =>
    rw [crlf, delimiters, s.next_crlf, ih]
    rfl

lemma lastGap_crlf (cut : Cut) : cut.crlf.lastGap = Text.crlf cut.lastGap := by
  induction cut with
  | last gap => rfl
  | tag gap s later ih => exact ih

lemma WellFormed.text_crlf (hcut : cut.WellFormed d) (hd : d.Valid) :
    cut.crlf.text d = Text.crlf (cut.text d) := by
  induction cut generalizing d with
  | last gap => rfl
  | tag gap s later ih =>
    obtain ⟨-, hs, hlater⟩ := hcut
    rw [Cut.crlf, text, s.next_crlf, hs.text_crlf hd, ih hlater (hs.valid_next hd), text,
      Text.crlf_append, Text.crlf_append]

lemma WellFormed.crlf (hcut : cut.WellFormed d) (hd : d.Valid) : cut.crlf.WellFormed d := by
  induction cut generalizing d with
  | last gap => exact fun h => hcut ((Text.infix_crlf_iff hd.1 gap).1 h)
  | tag gap s later ih =>
    obtain ⟨hgap, hs, hlater⟩ := hcut
    refine ⟨(Text.firstAfter_crlf_iff hd.1 gap).2 hgap, hs.crlf hd, ?_⟩
    rw [s.next_crlf]
    exact ih hlater (hs.valid_next hd)

lemma kept_crlf (alone alone' : Bool) (gap : Text) :
    kept alone alone' (Text.crlf gap) = Text.crlf (kept alone alone' gap) := by
  have hdrop : ∀ t, Text.dropEndWhile isIndent (Text.crlf t) =
      Text.crlf (Text.dropEndWhile isIndent t) := Text.dropEndWhile_crlf (by decide)
  cases alone <;> cases alone' <;> simp [kept, Text.afterLine_crlf, hdrop]

lemma textTokens_crlf (t : Text) : textTokens (Text.crlf t) = (textTokens t).map Token.crlf := by
  by_cases ht : t = []
  · rw [ht]
    rfl
  · rw [textTokens_of_ne_nil ht, textTokens_of_ne_nil (fun h => ht (Text.crlf_eq_nil_iff.1 h))]
    rfl

/-- The lines of a template are where they were, so the same tags stand alone. -/
lemma WellFormed.tokensFrom_crlf (hcut : cut.WellFormed d) (hd : d.Valid) {x y : Text}
    (h : Text.lineIndent? x = Text.lineIndent? y) (alone : Bool) :
    cut.crlf.tokensFrom [] d x alone = (cut.tokensFrom [] d y alone).map Token.crlf := by
  induction cut generalizing d x y alone with
  | last gap =>
    rw [Cut.crlf, tokensFrom, tokensFrom, kept_crlf, textTokens_crlf]
  | tag gap s later ih =>
    obtain ⟨-, hs, hlater⟩ := hcut
    have hd' := hs.valid_next hd
    have hstart := Text.lineIndent?_crlf h gap
    have hnext := Text.lineIndent?_crlf hstart (s.text d)
    have halone : StandsAlone (s.token (gap.reverse ++ y)).crlf ((Text.crlf gap).reverse ++ x)
        (later.crlf.text (s.next d) ++ []) ↔ StandsAlone (s.token (gap.reverse ++ y))
          (gap.reverse ++ y) (later.text (s.next d) ++ []) := by
      rw [standsAlone_congr _ hstart, standsAlone_iff_canStandAlone, standsAlone_iff_canStandAlone,
        Token.canStandAlone_crlf, hlater.text_crlf hd', List.append_nil, List.append_nil,
        Text.atLineEnd_crlf_iff]
    simp only [Cut.crlf, tokensFrom, s.next_crlf, hs.token_crlf hstart, halone, kept_crlf,
      textTokens_crlf, hs.text_crlf hd, ih hlater hd' hnext, List.map_append, List.map_cons]

end Cut

lemma Broken.crlf {d : Delimiters} {defect : Defect} {read unread : Text} (hd : d.Valid)
    (h : Broken d defect read unread) : Broken d defect (Text.crlf read) (Text.crlf unread) := by
  have hblank : ∀ {t : Text}, (∀ c ∈ t, isBlank c = true) → ∀ c ∈ Text.crlf t, isBlank c = true :=
    Text.forall_mem_crlf fun _ => rfl
  cases h with
  | empty hread => exact .empty (hblank hread)
  | unclosed hpadding hsigil hbody =>
    rw [Text.crlf_append, Text.crlf_cons (Text.ne_lineFeed_of_not_blank hsigil)]
    exact .unclosed (hblank hpadding) hsigil fun h => hbody ((Text.infix_crlf_iff hd.2 _).1 h)
  | @missingBrace padding content unread hpadding hcontent hunread =>
    rw [Text.crlf_append, Text.crlf_append, Text.crlf_cons (by decide),
      Text.crlf_of_isMark hd.2]
    refine .missingBrace (hblank hpadding) ((Text.firstAfter_crlf_iff hd.2 _).2 hcontent) ?_
    cases unread with
    | nil => exact hunread
    | cons c t =>
      by_cases hc : c = '\n'
      · subst hc
        simp
      · rw [Text.crlf_cons hc]
        simpa using hunread
  | badDirective hpadding hcontent hpair =>
    rw [Text.crlf_append, Text.crlf_append, Text.crlf_cons (by decide),
      Text.crlf_of_isMark hd.2]
    exact .badDirective (hblank hpadding) ((Text.firstAfter_crlf_iff hd.2 _).2 hcontent)
      (by rw [Delimiters.ofDirective?_crlf, hpair])

/-- A carriage return lengthens the line that it ends, and only the place of a later line is
counted. -/
lemma Position.after_crlf (p : Position) (t : Text) : p.after (Text.crlf t) = p.after t := by
  induction t generalizing p with
  | nil => rfl
  | cons c t ih =>
    by_cases hc : c = '\n'
    · subst hc
      rw [Text.crlf_lineFeed, after_cons, after_cons, after_cons, ih]
      rfl
    · rw [Text.crlf_cons hc, after_cons, after_cons, ih]

/-- Line ends are transparent: a carriage return in front of every line feed of a template puts
one in front of every line feed of its texts and names, and changes no kind, no order, no
indentation, no pair and no failure. -/
theorem tokenize_crlf {d : Delimiters} (hd : d.Valid) (source : Text) :
    tokenize d (Text.crlf source) = (tokenize d source).map (List.map Token.crlf) := by
  rcases exists_cut hd source with
    ⟨cut, hcut, rfl⟩ | ⟨cut, defect, read, unread, hcut, hfirst, hbroken, rfl⟩
  · rw [tokenize_of_cut hd hcut, ← hcut.text_crlf hd, tokenize_of_cut hd (hcut.crlf hd)]
    exact congrArg Except.ok (hcut.tokensFrom_crlf hd rfl false)
  · have hd' := hcut.valid_delimiters hd
    have hfirst' : FirstAfter (cut.crlf.delimiters d).opening cut.crlf.lastGap := by
      rw [cut.delimiters_crlf, cut.lastGap_crlf]
      exact (Text.firstAfter_crlf_iff hd'.1 _).2 hfirst
    have hfail := tokenize_of_broken hd (hcut.crlf hd) hfirst'
      ((cut.delimiters_crlf d).symm ▸ hbroken.crlf hd')
    rw [cut.delimiters_crlf, hcut.text_crlf hd] at hfail
    have hopen := Text.crlf_of_isMark hd'.1
    have hplace : Position.start.after (Text.crlf (cut.text d) ++
        ((cut.delimiters d).opening ++ Text.crlf read)) =
          Position.start.after (cut.text d ++ ((cut.delimiters d).opening ++ read)) := by
      rw [← Position.after_crlf _ (cut.text d ++ _)]
      simp only [Text.crlf_append, hopen]
    rw [tokenize_of_broken hd hcut hfirst hbroken]
    simp only [Text.crlf_append, hopen]
    rw [hfail, hplace]
    rfl

/-- A carriage return goes away with the line of a tag that stands alone, and stays in text. -/
theorem tokenize_crlf_block :
    tokenize .braces (Text.crlf "\x7b\x7b#a\x7d\x7d\nx\n".toList) =
      .ok [.block .plain ['a'], .text ['x', '\r', '\n']] := by
  rw [tokenize_crlf Delimiters.valid_braces]
  decide +kernel

end Mustache
