import Mathlib.Data.List.Forall2
import Mustache.Proofs.Place
import Mustache.Proofs.RoundTrip

/-! Tags that stand alone on their lines, in a template and in its canonical form. The tokens do not
tell which tags of a template stood alone; still, each that did is written on a line of its own, and
stands alone again when the writing is read. -/
namespace Mustache

/-- The tags that a run has read, in order: where each begins, its kind, and whether it stands
alone. -/
def Lexer.Outcome.tags (outcome : Lexer.Outcome) : List (Position × Kind × Bool) :=
  outcome.records.filterMap Record.tag?

lemma tags_runOn_of_cut {d : Delimiters} {cut : Cut} (hd : d.Valid) (hcut : cut.WellFormed d) :
    (Lexer.runOn d (cut.text d)).tags = cut.tagsFrom d [] := by
  rw [Lexer.Outcome.tags, runOn_of_cut hd hcut, List.filterMap_append]
  exact List.append_nil _

lemma exists_of_getElem?_filterMap {α β : Type} {f : α → Option β} {l : List α} {n : Nat} {b : β}
    (h : (l.filterMap f)[n]? = some b) :
    ∃ front a back, l = front ++ a :: back ∧ (front.filterMap f).length = n ∧ f a = some b := by
  obtain ⟨hn, hget⟩ := List.getElem?_eq_some_iff.1 h
  have hsplit := (List.take_append_drop n (l.filterMap f)).symm
  rw [List.drop_eq_getElem_cons hn, hget] at hsplit
  obtain ⟨front, rest, rfl, hfront, hrest⟩ := List.filterMap_eq_append_iff.1 hsplit
  obtain ⟨skipped, a, back, rfl, hskipped, ha, -⟩ := List.filterMap_eq_cons_iff.1 hrest
  refine ⟨front ++ skipped, a, back, by rw [List.append_assoc], ?_, ha⟩
  rw [List.filterMap_append, List.filterMap_eq_nil_iff.2 hskipped, List.append_nil, hfront,
    List.length_take, min_eq_left hn.le]

namespace Canonical

open Layout

variable {d : Delimiters}

/-- What is written for each token. -/
def pieces (d : Delimiters) (tokens : List Token) : List Text :=
  (placements d [] tokens).map Placement.text

/-- A tag among tokens is written on a line of its own, behind the pieces of the earlier tokens: at
the start of the writing or behind a line feed, after nothing but its indentation, and with a line
feed right behind it. -/
structure OnOwnLine (d : Delimiters) (earlier : List Token) (tag : Token) (later : List Token)
    (front : List Text) : Prop where
  isTag : tag.isText = false
  length : front.length = earlier.length
  endsLine : Text.EndsLine front.flatten
  piece : ∃ back, pieces d (earlier ++ tag :: later) =
    front ++ (indentation tag ++ spell (pairAfter d earlier) tag ++ ['\n']) :: back

lemma writeFrom_eq_placements (d : Delimiters) (written : Text) (tokens : List Token) :
    writeFrom d written tokens (plan tokens) =
      written.reverse ++ ((placements d written tokens).map Placement.text).flatten := by
  induction tokens generalizing d written with
  | nil => simp [writeFrom, placements]
  | cons token later ih =>
    rw [plan_cons, writeFrom, placements]
    simp only [List.tail_cons, firstStart, ih, List.map_cons, List.flatten_cons, Placement.text,
      List.reverse_append, List.reverse_reverse, List.append_assoc]

lemma flatten_pieces (d : Delimiters) (tokens : List Token) :
    (pieces d tokens).flatten = write d tokens := by
  rw [write, writeFrom_eq_placements, List.reverse_nil, List.nil_append, pieces]

/-- Where the writing of some tokens ends, the others are written behind it. -/
lemma exists_of_placements_eq_append {tokens : List Token} {written : Text}
    {front back : List Placement} (h : placements d written tokens = front ++ back) :
    ∃ earlier later, tokens = earlier ++ later ∧ earlier = front.map Placement.token ∧
      back = placements (pairAfter d earlier)
        ((front.map Placement.text).flatten.reverse ++ written) later := by
  induction front generalizing d written tokens with
  | nil => exact ⟨[], tokens, rfl, rfl, h.symm⟩
  | cons p front ih =>
    cases tokens with
    | nil => cases h
    | cons token rest =>
      rw [placements, List.cons_append, List.cons.injEq] at h
      obtain ⟨rfl, hrest⟩ := h
      obtain ⟨earlier, later, rfl, rfl, rfl⟩ := ih hrest
      refine ⟨token :: front.map Placement.token, later, rfl, rfl, ?_⟩
      simp [Placement.text, pairAfter]

/-- A tag on a line of its own, with what is written before it. -/
lemma exists_of_placements_eq_cons {tokens : List Token} {written : Text} {p : Placement}
    {back : List Placement} (h : placements d written tokens = p :: back)
    (hown : p.ownLine = true) :
    (∃ later, tokens = p.token :: later) ∧ p.pair = d ∧ p.written = written ∧
      Text.Breaks written := by
  cases tokens with
  | nil => cases h
  | cons token later =>
    rw [placements, List.cons.injEq] at h
    obtain ⟨rfl, -⟩ := h
    exact ⟨⟨later, rfl⟩, rfl, rfl, (ownsLine_iff.1 hown).1⟩

lemma Placement.of_tag?_eq_some {p : Placement} {place : Position} {kind : Kind} {own : Bool}
    (h : p.tag? = some (place, kind, own)) :
    p.token.isText = false ∧ p.token.kind = kind ∧ p.ownLine = own ∧
      place = Position.start.after ((margin p.ownLine p.token).reverse ++ p.written).reverse := by
  unfold tag? at h
  split at h
  · cases h
  · next htext =>
    simp only [Option.some.injEq, Prod.mk.injEq] at h
    exact ⟨by simpa using htext, h.2.1, h.2.2, h.1.symm⟩

lemma length_filterMap_tag? (front : List Placement) :
    (front.filterMap Placement.tag?).length =
      (front.map Placement.token).countP fun token => !token.isText := by
  rw [List.length_filterMap_eq_countP, List.countP_map]
  congr 1
  funext p
  cases htext : p.token.isText <;> simp [Placement.tag?, htext]

/-- A tag that was placed on a line of its own. -/
lemma exists_onOwnLine_of_tag {tokens : List Token} {n : Nat} {place : Position} {kind : Kind}
    (h : ((placements d [] tokens).filterMap Placement.tag?)[n]? = some (place, kind, true)) :
    ∃ earlier tag later front, tokens = earlier ++ tag :: later ∧
      earlier.countP (fun token => !token.isText) = n ∧ tag.kind = kind ∧
      OnOwnLine d earlier tag later front ∧
      place = .ofText (front.flatten ++ indentation tag) := by
  obtain ⟨front, p, back, hsplit, hlength, hp⟩ := exists_of_getElem?_filterMap h
  obtain ⟨htext, hkind, hown, rfl⟩ := Placement.of_tag?_eq_some hp
  obtain ⟨earlier, rest, rfl, hearlier, hrest⟩ := exists_of_placements_eq_append hsplit
  obtain ⟨⟨later, rfl⟩, hpair, hwritten, hbreaks⟩ := exists_of_placements_eq_cons hrest.symm hown
  rw [List.append_nil] at hwritten
  refine ⟨earlier, p.token, later, front.map Placement.text, rfl, ?_, hkind,
    ⟨htext, ?_, Text.endsLine_of_breaks hbreaks, back.map Placement.text, ?_⟩, ?_⟩
  · rw [← hlength, length_filterMap_tag?, hearlier]
  · rw [hearlier, List.length_map, List.length_map]
  · rw [pieces, hsplit, List.map_append, List.map_cons, ← hpair]
    simp only [Placement.text, place, hown, if_true]
  · rw [hown, hwritten, margin_true, ← List.reverse_append, List.reverse_reverse,
      Position.start_after]

end Canonical

lemma exists_alone_of_forall₂ {old new : List (Position × Kind × Bool)} {n : Nat}
    {place : Position} {kind : Kind}
    (h : List.Forall₂ Canonical.KeepsLine (old.map Prod.snd) (new.map Prod.snd))
    (hold : old[n]? = some (place, kind, true)) :
    ∃ place', new[n]? = some (place', kind, true) := by
  obtain ⟨hn, hget⟩ := List.getElem?_eq_some_iff.1 hold
  have hlength : old.length = new.length := by simpa using h.length_eq
  have hkeeps := h.get (by simpa using hn) (by simpa [← hlength] using hn)
  simp only [List.get_eq_getElem, List.getElem_map, hget] at hkeeps
  obtain ⟨hkind, halone⟩ := hkeeps
  refine ⟨(new[n]).1, ?_⟩
  rw [List.getElem?_eq_getElem (hlength ▸ hn)]
  exact congrArg some (Prod.ext rfl (Prod.ext hkind (halone rfl)))

/-- Standing alone is kept: a tag that stood alone in a template is written on a line of its own,
behind nothing but its indentation and in front of a line feed, if every directive can be written
under the pair in effect before it; and it stands alone again where the writing is read. -/
theorem tags_write_of_alone {d : Delimiters} (hd : d.Valid) {source : Text} {tokens : List Token}
    (h : tokenize d source = .ok tokens) (hfit : DirectivesFit d tokens) :
    (Canonical.pieces d tokens).flatten = Canonical.write d tokens ∧
      ∀ n place kind, (Lexer.runOn d source).tags[n]? = some (place, kind, true) →
        ∃ earlier tag later front, tokens = earlier ++ tag :: later ∧
          earlier.countP (fun token => !token.isText) = n ∧ tag.kind = kind ∧
          Canonical.OnOwnLine d earlier tag later front ∧
          (Lexer.runOn d (Canonical.write d tokens)).tags[n]? =
            some (.ofText (front.flatten ++ Canonical.indentation tag), kind, true) := by
  refine ⟨Canonical.flatten_pieces d tokens, fun n place kind halone => ?_⟩
  obtain ⟨cut, hcut, rfl, rfl⟩ := exists_cut_of_tokenize_eq_ok hd h
  have hlexed : LexedAs d [] (cut.tokens d) ((cut.tagsFrom d []).map Prod.snd) :=
    Cut.lexedAs_tokensFrom hd hcut (by simp) rfl
  have hempty : Canonical.Replaces (Canonical.feed false ++ []) [] (cut.tokens d) :=
    .inl ⟨Text.breaks_nil, Text.breaks_nil⟩
  obtain ⟨cut', t, hcut'⟩ := Canonical.exists_written_of_lexedAs hlexed hd hfit hempty
  have hwrite : Canonical.write d (cut.tokens d) = cut'.text d := by
    rw [hcut'.text]
    exact hcut'.write
  rw [tags_runOn_of_cut hd hcut] at halone
  rw [hwrite, tags_runOn_of_cut hd hcut'.wellFormed]
  obtain ⟨place', hplace'⟩ := exists_alone_of_forall₂ hcut'.alone halone
  have hplaced := hplace'
  rw [hcut'.placed] at hplaced
  obtain ⟨earlier, tag, later, front, htokens, hcount, hkind, hline, rfl⟩ :=
    Canonical.exists_onOwnLine_of_tag hplaced
  exact ⟨earlier, tag, later, front, htokens, hcount, hkind, hline, hplace'⟩

/-- An inclusion that stood alone behind a line with a value gets its line and its indentation
back. -/
theorem tags_write_of_alone_inclusion :
    (Lexer.runOn .braces "\x7b\x7ba\x7d\x7d\n  \x7b\x7b> p \x7d\x7d \nz".toList).tags[1]? =
        some (⟨2, 3⟩, .inclusion, true) ∧
      ∃ earlier tag later front,
        [.escaped ['a'], .text ['\n'], .inclusion ['p'] [' ', ' '], .text ['z']] =
          earlier ++ tag :: later ∧
        earlier.countP (fun token => !token.isText) = 1 ∧ tag.kind = .inclusion ∧
        Canonical.OnOwnLine .braces earlier tag later front ∧
        (Lexer.runOn .braces (Canonical.write .braces
            [.escaped ['a'], .text ['\n'], .inclusion ['p'] [' ', ' '], .text ['z']])).tags[1]? =
          some (.ofText (front.flatten ++ Canonical.indentation tag), .inclusion, true) := by
  have hread : tokenize .braces
      "\x7b\x7ba\x7d\x7d\n  \x7b\x7b> p \x7d\x7d \nz".toList =
        .ok [.escaped ['a'], .text ['\n'], .inclusion ['p'] [' ', ' '], .text ['z']] := by
    decide +kernel
  have hfit : DirectivesFit .braces
      [.escaped ['a'], .text ['\n'], .inclusion ['p'] [' ', ' '], .text ['z']] := by
    simp [DirectivesFit.cons_iff, DirectivesFit.nil]
  have halone : (Lexer.runOn .braces
      "\x7b\x7ba\x7d\x7d\n  \x7b\x7b> p \x7d\x7d \nz".toList).tags[1]? =
        some (⟨2, 3⟩, .inclusion, true) := by decide +kernel
  exact ⟨halone, (tags_write_of_alone Delimiters.valid_braces hread hfit).2 1 _ _ halone⟩

end Mustache
