import Mathlib.Algebra.BigOperators.Group.List.Basic
import Mathlib.Algebra.GroupWithZero.Nat
import Mustache.Listing
import Mustache.Proofs.TokenShape

/-! Listings line by line. Texts and indentation are listed between quotation marks and delimiters
hold no blanks, so they keep to their lines; names are listed as they stand. What the lexer keeps
of a name does not end with a blank, so nothing is cut off, but a line feed inside a name breaks
its line. -/
namespace Mustache

/-! Characters of quoted texts and numbers. -/

lemma digitChar_ne_lineFeed : ∀ n < 16, Nat.digitChar n ≠ '\n' := by decide

lemma lineFeed_notMem_toDigits {b : Nat} (hb : 1 < b) (hb' : b ≤ 16) (n : Nat) :
    '\n' ∉ b.toDigits n := by
  induction n using Nat.strong_induction_on with
  | _ n ih =>
    rw [Nat.toDigits_eq_if hb]
    split
    next hn =>
      rw [List.mem_singleton]
      exact (digitChar_ne_lineFeed n (by omega)).symm
    next hn =>
      have hquotient : n / b < n := Nat.div_lt_self (by omega) hb
      have hdigit : n % b < b := Nat.mod_lt n (by omega)
      rw [List.mem_append, List.mem_singleton, not_or]
      exact ⟨ih _ hquotient, (digitChar_ne_lineFeed _ (by omega)).symm⟩

namespace Text

lemma lineFeed_notMem_ofNat (n : Nat) : '\n' ∉ ofNat n :=
  lineFeed_notMem_toDigits (by decide) (by decide) n

lemma lineFeed_notMem_codeEscape (c : Char) : '\n' ∉ codeEscape c := by
  simp [codeEscape, lineFeed_notMem_toDigits]

lemma lineFeed_notMem_quoteChar (c : Char) : '\n' ∉ quoteChar c := by
  unfold quoteChar
  split
  case h_7 hfeed _ _ _ =>
    split
    · exact fun hmem => hfeed (List.mem_singleton.1 hmem).symm
    · exact lineFeed_notMem_codeEscape c
  all_goals decide

lemma lineFeed_notMem_quote (t : Text) : '\n' ∉ quote t := by
  simp [quote, lineFeed_notMem_quoteChar]

end Text

namespace Listing

/-- All there is to say of a token besides its kind: a quoted text, a name with the quoted
indentation if there is any, both sequences of a pair, or a name alone. -/
def saidOf : Token → Text
  | .text content => Text.quote content
  | .inclusion name indentation =>
    if indentation = [] then name
    else name ++ (" (indent ".toList ++ Text.quote indentation ++ ")".toList)
  | .setDelimiters pair => pair.opening ++ ' ' :: pair.closing
  | .escaped name | .unescaped name | .block _ name => name
  | .comment => []

lemma detail_eq (token : Token) : detail token = saidOf token := by
  cases token with
  | inclusion name indentation => cases indentation <;> simp [detail, saidOf, Token.name?]
  | _ => rfl

/-- A line that shows a token: its kind stands behind two spaces, and all there is to say of the
token follows. -/
structure Shows (token : Token) (line : Text) : Prop where
  kind : "  ".toList ++ token.kind.label.toList <+: line
  detail : saidOf token <:+: line

/-- A listing that consists of the heading and one line for each token. -/
def OneLineEach (path : Text) (tokens : List Token) (listing : Text) : Prop :=
  ∃ lines, listing = (heading path tokens :: lines).flatMap (· ++ ['\n']) ∧
    (∀ line ∈ heading path tokens :: lines, '\n' ∉ line) ∧ List.Forall₂ Shows tokens lines

/-- The number of line feeds in the name of a token, if it has one. -/
def breaks (token : Token) : Nat := (token.name?.getD []).count '\n'

lemma count_flatMap_lines (lines : List Text) :
    (lines.flatMap (· ++ ['\n'])).count '\n' = (lines.map (·.count '\n')).sum + lines.length := by
  induction lines with
  | nil => rfl
  | cons line lines ih =>
    simp only [List.flatMap_cons, List.count_append, ih, List.map_cons, List.sum_cons,
      List.length_cons, List.count_singleton_self]
    omega

lemma OneLineEach.count {path listing : Text} {tokens : List Token}
    (h : OneLineEach path tokens listing) : listing.count '\n' = 1 + tokens.length := by
  obtain ⟨lines, rfl, hfeed, hshows⟩ := h
  have hzero : ((heading path tokens :: lines).map (·.count '\n')).sum = 0 := by
    apply List.sum_eq_zero
    intro n hn
    obtain ⟨line, hline, rfl⟩ := List.mem_map.1 hn
    exact List.count_eq_zero.2 (hfeed line hline)
  rw [count_flatMap_lines, hzero, List.length_cons, ← hshows.length_eq]
  omega

/-! What is said of a token. -/

lemma lineFeed_notMem_label (kind : Kind) : '\n' ∉ kind.label.toList := by
  rcases kind with _ | _ | _ | _ | _ | mark | _
  case block => cases mark <;> decide
  all_goals decide

lemma exists_concat_label (kind : Kind) :
    ∃ t c, kind.label.toList = t ++ [c] ∧ isBlank c = false := by
  have hlast : kind.label.toList ≠ [] ∧ kind.label.toList.getLast?.any isBlank = false := by
    rcases kind with _ | _ | _ | _ | _ | mark | _
    case block => cases mark <;> decide
    all_goals decide
  obtain ⟨hne, hblank⟩ := hlast
  refine ⟨_, _, (List.dropLast_concat_getLast hne).symm, ?_⟩
  simpa [List.getLast?_eq_some_getLast hne] using hblank

/-- A name without blanks at its ends is empty or ends with a character that is not blank. -/
lemma eq_nil_or_concat_of_trim {name : Text} (h : Text.trim name = name) :
    name = [] ∨ ∃ u c, name = u ++ [c] ∧ isBlank c = false := by
  have hend := Text.dropEndWhile_eq_nil_or_concat isBlank (name.dropWhile isBlank)
  rwa [show Text.dropEndWhile isBlank (name.dropWhile isBlank) = name from h] at hend

variable {d : Delimiters} {token : Token}

/-- What is said of a token that fits some delimiters does not end with a blank. -/
lemma detail_eq_nil_or_concat (h : token.Fits d) :
    detail token = [] ∨ ∃ u c, detail token = u ++ [c] ∧ isBlank c = false := by
  cases token with
  | text content => exact .inr ⟨_, '"', rfl, rfl⟩
  | escaped name => exact eq_nil_or_concat_of_trim h.1
  | unescaped name => exact eq_nil_or_concat_of_trim h.1
  | comment => exact .inl rfl
  | inclusion name indentation =>
    cases indentation with
    | nil => exact eq_nil_or_concat_of_trim h.1.1
    | cons c indentation => exact .inr ⟨_, ')', rfl, rfl⟩
  | block mark name => exact eq_nil_or_concat_of_trim h.1
  | setDelimiters pair =>
    obtain ⟨t, c, hclosing, hc⟩ := exists_concat_of_isMark h.1.2
    refine .inr ⟨pair.opening ++ ' ' :: t, c, ?_, hc⟩
    simp [detail, Delimiters.display, hclosing]

/-- The line feeds in what is said of a token are those of its name. -/
lemma count_detail (h : token.Fits d) : (detail token).count '\n' = breaks token := by
  cases token with
  | text content => exact List.count_eq_zero.2 (Text.lineFeed_notMem_quote content)
  | inclusion name indentation =>
    cases indentation with
    | nil => rfl
    | cons c indentation =>
      have hquote := List.count_eq_zero.2 (Text.lineFeed_notMem_quote (c :: indentation))
      simp [detail, breaks, Token.name?, hquote]
  | setDelimiters pair =>
    have hopening := notMem_of_isMark h.1.1 (show isBlank '\n' = true from rfl)
    have hclosing := notMem_of_isMark h.1.2 (show isBlank '\n' = true from rfl)
    apply List.count_eq_zero.2
    simp [detail, Delimiters.display, hopening, hclosing]
  | escaped | unescaped | comment | block => rfl

/-- The line of a token is its kind, and behind enough spaces what is said of it, if anything is. -/
lemma exists_line_eq (h : token.Fits d) :
    ∃ padding, line token = "  ".toList ++ token.kind.label.toList ++ padding ++ detail token ∧
      '\n' ∉ padding := by
  generalize hspaces : List.replicate (kindWidth - token.kind.label.toList.length) ' ' = spaces
  have hblank : ∀ c ∈ spaces ++ [' '], isBlank c = true ∧ c ≠ '\n' := by
    intro c hc
    have hspace : c = ' ' := by
      rw [← hspaces, List.mem_append, List.mem_replicate, List.mem_singleton] at hc
      exact hc.elim And.right id
    subst hspace
    decide
  have hline : line token = Text.dropEndWhile isBlank
      ("  ".toList ++ token.kind.label.toList ++ (spaces ++ [' ']) ++ detail token) := by
    simp [line, hspaces]
  -- With nothing to say, the spaces behind the kind are blanks at the end and go as well.
  rcases detail_eq_nil_or_concat h with hdetail | ⟨u, c, hdetail, hc⟩
  · obtain ⟨t, c, hlabel, hc⟩ := exists_concat_label token.kind
    refine ⟨[], ?_, List.not_mem_nil⟩
    rw [hline, hdetail, List.append_nil, List.append_nil, List.append_nil,
      Text.dropEndWhile_append_of_all fun c hc => (hblank c hc).1, hlabel, ← List.append_assoc]
    exact Text.dropEndWhile_concat_of_not hc _
  · refine ⟨spaces ++ [' '], ?_, fun hmem => (hblank _ hmem).2 rfl⟩
    rw [hline, hdetail, ← List.append_assoc]
    exact Text.dropEndWhile_concat_of_not hc _

lemma shows_line (h : token.Fits d) : Shows token (line token) := by
  obtain ⟨padding, hline, -⟩ := exists_line_eq h
  rw [hline, detail_eq]
  exact ⟨⟨padding ++ saidOf token, by simp⟩, (List.suffix_append _ _).isInfix⟩

lemma count_line (h : token.Fits d) : (line token).count '\n' = breaks token := by
  obtain ⟨padding, hline, hpadding⟩ := exists_line_eq h
  have hlabel := List.count_eq_zero.2 (lineFeed_notMem_label token.kind)
  have hmargin : "  ".toList.count '\n' = 0 := by decide
  rw [hline, List.count_append, List.count_append, List.count_append, hlabel, hmargin,
    List.count_eq_zero.2 hpadding, count_detail h, Nat.zero_add]

lemma lineFeed_notMem_heading {path : Text} (hpath : '\n' ∉ path) (tokens : List Token) :
    '\n' ∉ heading path tokens := by
  have hnumber := Text.lineFeed_notMem_ofNat tokens.length
  have hwords : ∀ words ∈ ["Tokens for '", "' (", " tokens):"], '\n' ∉ words.toList := by decide
  simp only [List.forall_mem_cons] at hwords
  unfold heading
  simp only [List.mem_append, not_or]
  exact ⟨⟨⟨⟨hwords.1, hpath⟩, hwords.2.1⟩, hnumber⟩, hwords.2.2.1⟩

end Listing

/-- Each token of a list with its shape fits the pair in effect before it. -/
lemma Shaped.exists_fits {d : Delimiters} {tokens : List Token} (h : Shaped d tokens) :
    ∀ token ∈ tokens, ∃ pair, token.Fits pair := by
  induction tokens generalizing d with
  | nil => simp
  | cons first later ih =>
    intro token htoken
    rcases List.mem_cons.1 htoken with rfl | hlater
    · exact ⟨d, h.1⟩
    · exact ih h.2.2 token hlater

namespace Listing

lemma count_render {path : Text} (hpath : '\n' ∉ path) {tokens : List Token}
    (h : ∀ token ∈ tokens, ∃ pair, token.Fits pair) :
    (render path tokens).count '\n' = 1 + tokens.length + (tokens.map breaks).sum := by
  have hlines : (tokens.map line).map (·.count '\n') = tokens.map breaks := by
    rw [List.map_map]
    apply List.map_congr_left
    intro token htoken
    obtain ⟨pair, hfits⟩ := h token htoken
    exact count_line hfits
  rw [render, count_flatMap_lines, List.map_cons, hlines, List.sum_cons,
    List.count_eq_zero.2 (lineFeed_notMem_heading hpath tokens), List.length_cons, List.length_map]
  omega

/-- Where no name holds a line feed, every token has one line. -/
lemma oneLineEach_render {path : Text} (hpath : '\n' ∉ path) {tokens : List Token}
    (h : ∀ token ∈ tokens, ∃ pair, token.Fits pair) (hbreaks : ∀ token ∈ tokens, breaks token = 0) :
    OneLineEach path tokens (render path tokens) := by
  refine ⟨tokens.map line, rfl, ?_, ?_⟩
  · intro l hl
    rcases List.mem_cons.1 hl with rfl | hl
    · exact lineFeed_notMem_heading hpath tokens
    · obtain ⟨token, htoken, rfl⟩ := List.mem_map.1 hl
      obtain ⟨pair, hfits⟩ := h token htoken
      rw [← List.count_eq_zero, count_line hfits, hbreaks token htoken]
  · rw [List.forall₂_map_right_iff, List.forall₂_same]
    intro token htoken
    obtain ⟨pair, hfits⟩ := h token htoken
    exact shows_line hfits

end Listing

/-- The listing of a template shows each token whole, on a line that only line feeds in its name
break: every token has one line of its own exactly if no name holds a line feed. -/
theorem oneLineEach_render_iff {path : Text} (hpath : '\n' ∉ path) {d : Delimiters} (hd : d.Valid)
    {source : Text} {tokens : List Token} (h : tokenize d source = .ok tokens) :
    (∀ token ∈ tokens, Listing.Shows token (Listing.line token)) ∧
    (Listing.render path tokens).count '\n' =
      1 + tokens.length + (tokens.map Listing.breaks).sum ∧
    (Listing.OneLineEach path tokens (Listing.render path tokens) ↔
      ∀ token ∈ tokens, ∀ name ∈ token.name?, '\n' ∉ name) := by
  obtain ⟨cut, hcut, -, rfl⟩ := exists_cut_of_tokenize_eq_ok hd h
  have hlexed : Lexed d [] (cut.tokens d) := Cut.lexed_tokensFrom hd hcut (by simp) rfl
  have hfits := (hlexed.shaped hd).exists_fits
  have hcount := Listing.count_render hpath hfits
  have hbreaks : ∀ token : Token, Listing.breaks token = 0 ↔ ∀ name ∈ token.name?, '\n' ∉ name := by
    intro token
    cases hname : token.name? <;> simp [Listing.breaks, hname, List.count_eq_zero]
  simp only [← hbreaks]
  refine ⟨?_, hcount, fun hone => ?_, Listing.oneLineEach_render hpath hfits⟩
  · intro token htoken
    obtain ⟨pair, hpair⟩ := hfits token htoken
    exact Listing.shows_line hpair
  · have hsum : ((cut.tokens d).map Listing.breaks).sum = 0 := by
      have hlines := hone.count
      omega
    intro token htoken
    exact List.sum_eq_zero_iff_forall_eq_nat.1 hsum _ (List.mem_map_of_mem htoken)

/-- A text with a line feed, an inclusion with its indentation and a pair each have one line. -/
theorem oneLineEach_render_quoted :
    tokenize .braces "a\n\t\x7b\x7b> b \x7d\x7d\n\x7b\x7b=| |=\x7d\x7d".toList =
        .ok [.text ['a', '\n'], .inclusion ['b'] ['\t'], .setDelimiters ⟨['|'], ['|']⟩] ∧
      Listing.OneLineEach ['t']
        [.text ['a', '\n'], .inclusion ['b'] ['\t'], .setDelimiters ⟨['|'], ['|']⟩]
        (Listing.render ['t']
          [.text ['a', '\n'], .inclusion ['b'] ['\t'], .setDelimiters ⟨['|'], ['|']⟩]) := by
  have hread : tokenize .braces "a\n\t\x7b\x7b> b \x7d\x7d\n\x7b\x7b=| |=\x7d\x7d".toList =
      .ok [.text ['a', '\n'], .inclusion ['b'] ['\t'], .setDelimiters ⟨['|'], ['|']⟩] := by
    decide +kernel
  have hpath : '\n' ∉ ['t'] := by decide
  have hone := (oneLineEach_render_iff hpath Delimiters.valid_braces hread).2.2
  exact ⟨hread, hone.2 (by decide)⟩

/-- A value whose name goes over two lines has no line of its own. -/
theorem not_oneLineEach_render_of_name :
    tokenize .braces "\x7b\x7ba\nb\x7d\x7d".toList = .ok [.escaped ['a', '\n', 'b']] ∧
      ¬ Listing.OneLineEach ['t'] [.escaped ['a', '\n', 'b']]
        (Listing.render ['t'] [.escaped ['a', '\n', 'b']]) := by
  refine ⟨by decide +kernel, fun hone => ?_⟩
  have hthree : (Listing.render ['t'] [.escaped ['a', '\n', 'b']]).count '\n' = 3 := by decide
  rw [hone.count] at hthree
  cases hthree

end Mustache
