import Mustache.Proofs.CanonicalTag
import Mustache.Proofs.Grammar

/-! Directives in canonical form. Blanks inside a new closing sequence are dropped when a directive
is read, so the sequence that is written back may hold the closing sequence in effect, which the
directive itself did not. The tag then ends early, in front of the sign that ends the pair. -/
namespace Mustache

namespace Delimiters

variable {d pair : Delimiters} {content t : Text}

/-- The beginning of a directive, up to a place in front of the sign, sets no pair. -/
lemma ofDirective?_eq_none_of_prefix (hpair : pair.Valid) (hsign : '=' ∉ pair.closing)
    (ht : t <+: pair.display) : ofDirective? t = none := by
  have hopen : ∀ c ∈ pair.opening, (!isBlank c) = true := by
    intro c hc
    by_contra hb
    exact notMem_of_isMark hpair.1 (by simpa using hb) hc
  have htail : '=' ∉ (t.dropWhile isBlank).dropWhile (!isBlank ·) := by
    obtain ⟨v, hv⟩ := ht
    rcases List.append_eq_append_iff.1 hv with ⟨u, hopening, -⟩ | ⟨u, rfl, hu⟩
    · -- Inside the first word there is no second one.
      have hnil : (t.dropWhile isBlank).dropWhile (!isBlank ·) = [] := by
        rw [List.dropWhile_eq_nil_iff]
        intro c hc
        apply hopen
        rw [hopening]
        exact List.mem_append_left u ((List.dropWhile_suffix _).subset hc)
      simp [hnil]
    · have hfront : (pair.opening ++ u).dropWhile isBlank = pair.opening ++ u := by
        obtain ⟨c, w, hcons, hc⟩ := exists_cons_of_isMark hpair.1
        rw [hcons, List.cons_append, List.dropWhile_cons_of_neg (by simp [hc])]
      rw [hfront, List.dropWhile_append_of_pos hopen]
      intro hmem
      have hrest : '=' ∈ ' ' :: pair.closing := by
        rw [hu]
        exact List.mem_append_left v ((List.dropWhile_suffix _).subset hmem)
      rcases List.mem_cons.1 hrest with h | h
      · exact absurd h (by decide)
      · exact hsign h
  simp [ofDirective?, htail]

/-- A sequence without blanks that the opening sequence does not hold is found in the body of a
directive only behind the space. -/
lemma infix_display_iff {p : Text} (hp : isMark p = true) (hno : ¬ p <:+: pair.opening) :
    p <:+: pair.display ++ ['='] ↔ p <:+: pair.closing ++ ['='] := by
  have hsplit : pair.display ++ ['='] = pair.opening ++ ' ' :: (pair.closing ++ ['=']) := by
    simp [display]
  rw [hsplit, infix_append_cons_iff (notMem_of_isMark hp rfl)]
  exact or_iff_right hno

/-- A directive that is read does not hold the closing sequence in effect in its first word. -/
lemma not_infix_opening_of_ofDirective? (hd : d.Valid) (hcontent : FirstAfter d.closing content)
    (hpair : ofDirective? content = some pair) : ¬ d.closing <:+: pair.opening := by
  intro h
  simp only [ofDirective?] at hpair
  split at hpair
  · obtain ⟨rfl, -⟩ := ofPair?_eq_some_iff.1 hpair
    apply hcontent.not_infix (ne_nil_of_isMark hd.2)
    exact h.trans ((List.takeWhile_prefix _).isInfix.trans (List.dropWhile_suffix _).isInfix)
  · cases hpair

end Delimiters

namespace Canonical

variable {d pair : Delimiters}

/-- A directive alone is written on a line of its own. -/
lemma write_directive (d pair : Delimiters) :
    write d [.setDelimiters pair] = tagText d ['='] (pair.display ++ ['=']) ++ ['\n'] := by
  have hown : ownsLine (.setDelimiters pair) [] [] .either = true := rfl
  simp only [write, Layout.plan_cons, Layout.plan_nil, writeFrom, List.tail_cons,
    List.headD_cons, hown, place, if_true]
  simp [indentation, spell, body, Token.kind, Kind.sigil?]

/-- The separator does not help where the body itself holds the closing sequence: the tag is read
up to there, and what it then holds sets no pair. -/
lemma tokenize_write_directive_eq_error (hd : d.Valid) (hpair : pair.Valid)
    (hsign : '=' ∉ pair.closing) (hin : d.closing <:+: pair.display ++ ['=']) :
    ∃ position, tokenize d (write d [.setDelimiters pair]) = .error ⟨position, .badDirective⟩ := by
  obtain ⟨n, hn⟩ := Option.ne_none_iff_exists'.1 fun h => firstIndex?_eq_none_iff.1 h hin
  obtain ⟨u, w, hbody, -, hu⟩ := exists_of_firstIndex?_eq_some hn
  have hprefix : u <+: pair.display := by
    have hlong : u <+: pair.display ++ ['='] := ⟨d.closing ++ w, by rw [hbody, List.append_assoc]⟩
    rcases List.prefix_concat_iff.1 hlong with h | h
    · rw [← h, List.append_assoc, List.self_eq_append_right] at hbody
      exact absurd (List.append_eq_nil_iff.1 hbody).1 (ne_nil_of_isMark hd.2)
    · exact h
  have hbroken : Broken d .badDirective ([] ++ '=' :: u ++ d.closing)
      (w ++ separator d.closing (pair.display ++ ['=']) ++ d.closing ++ ['\n']) :=
    .badDirective (by simp) hu (Delimiters.ofDirective?_eq_none_of_prefix hpair hsign hprefix)
  have hread := tokenize_of_broken hd (Cut.wellFormed_empty hd) (firstAfter_nil _) hbroken
  have htext : write d [.setDelimiters pair] = (Cut.last []).text d ++ (d.opening ++
      ([] ++ '=' :: u ++ d.closing) ++
      (w ++ separator d.closing (pair.display ++ ['=']) ++ d.closing ++ ['\n'])) := by
    rw [write_directive, tagText]
    generalize separator d.closing (pair.display ++ ['=']) = space
    rw [hbody]
    simp [Cut.text]
  exact ⟨_, htext ▸ hread⟩

end Canonical

/-- A tag that can stand alone, on the only line of a template, is all that is read. -/
lemma tokenize_line {d : Delimiters} {s : Spelling} (hd : d.Valid) (hs : s.WellFormed d)
    (halone : (s.token []).canStandAlone = true) :
    tokenize d (s.text d ++ ['\n']) = .ok [s.token []] := by
  have hnext := (hs.valid_next hd).1
  have hfirst : FirstAfter (s.next d).opening ['\n'] :=
    firstAfter_of_blanks hnext (by simp [isBlank])
  have hgap : ¬ (s.next d).opening <:+: ['\n'] := hfirst.not_infix (ne_nil_of_isMark hnext)
  have hcut : (Cut.tag [] s (.last ['\n'])).WellFormed d := ⟨firstAfter_nil _, hs, hgap⟩
  have hstands : StandsAlone (s.token []) [] ['\n'] :=
    ⟨Token.writesNothing_iff.2 halone, by decide, by decide⟩
  have htokens : (Cut.tag [] s (.last ['\n'])).tokens d = [s.token []] := by
    simp only [Cut.tokens, Cut.tokensFrom, Cut.text, List.reverse_nil, List.append_nil,
      decide_eq_true hstands]
    rfl
  rw [← htokens, ← tokenize_of_cut hd hcut]
  simp [Cut.text]

/-- A directive that is read can be written back exactly if its new closing sequence, followed by
the sign, does not hold the closing sequence in effect. -/
theorem tokenize_write_directive_iff {d pair : Delimiters} {content : Text} (hd : d.Valid)
    (hcontent : FirstAfter d.closing content)
    (hpair : Delimiters.ofDirective? content = some pair) :
    tokenize d (Canonical.write d [.setDelimiters pair]) = .ok [.setDelimiters pair] ↔
      ¬ d.closing <:+: pair.closing ++ ['='] := by
  have hfit := Delimiters.infix_display_iff hd.2
    (Delimiters.not_infix_opening_of_ofDirective? hd hcontent hpair)
  rw [← hfit]
  constructor
  · intro hread hin
    obtain ⟨position, herror⟩ := Canonical.tokenize_write_directive_eq_error hd
      (Delimiters.valid_of_ofDirective? hpair) (Delimiters.notMem_closing_of_ofDirective? hpair) hin
    cases hread.symm.trans herror
  · intro hno
    have hs : Spelling.WellFormed d ⟨[], '=', content⟩ :=
      ⟨by simp, rfl, hcontent, fun _ => by rw [hpair]; rfl⟩
    have htoken : Spelling.token ⟨[], '=', content⟩ = fun _ => .setDelimiters pair := by
      funext before
      rw [Spelling.token_eq, Tag.token?_of_eq rfl, hpair]
      rfl
    have hwritten : ∀ next, Spelling.token ⟨[], '=', content⟩ [] = .setDelimiters next →
        ¬ d.closing <:+: next.display ++ ['='] := by
      rintro next h
      obtain rfl : pair = next := by simpa [htoken] using h
      exact hno
    obtain ⟨s, hs, hsame, hspell⟩ := Spelling.hasCanonical_directive hd hs rfl hwritten
    rw [htoken] at hsame hspell
    have hline := tokenize_line hd hs (by rw [hsame]; rfl)
    rw [hspell [], hsame] at hline
    rw [Canonical.write_directive]
    exact hline

/-- A directive whose closing sequence is written apart is read, and written back in one word. -/
theorem tokenize_write_directive_spaced :
    tokenize .braces (Canonical.write .braces [.setDelimiters ⟨['<', '%'], ['%', '>']⟩]) =
      .ok [.setDelimiters ⟨['<', '%'], ['%', '>']⟩] := by
  have hpair : Delimiters.ofDirective? " <%  % > = x".toList =
      some ⟨['<', '%'], ['%', '>']⟩ := by decide
  exact (tokenize_write_directive_iff Delimiters.valid_braces (by decide) hpair).2 (by decide)

/-- A directive that sets the closing sequence in effect once more, written with a space inside, is
read but cannot be written back. -/
theorem tokenize_write_directive_braces :
    FirstAfter Delimiters.braces.closing "\x7b\x7b \x7d \x7d=".toList ∧
      Delimiters.ofDirective? "\x7b\x7b \x7d \x7d=".toList = some .braces ∧
      tokenize .braces (Canonical.write .braces [.setDelimiters .braces]) =
        .error ⟨⟨1, 9⟩, .badDirective⟩ := by
  refine ⟨by decide, by decide, by decide +kernel⟩

end Mustache
