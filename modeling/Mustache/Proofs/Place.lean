import Mathlib.Data.List.Count
import Mathlib.Data.List.DropRight
import Mustache.Proofs.LinePlace
import Mustache.Reader

/-! Places of a source. A place is known by the text before it: its byte offset, its line and its
column can be counted afresh from that text, and a reader that moves along keeps all three. -/
namespace Mustache

namespace Text

/-- The characters behind the last line feed of a text. -/
def lastLine (t : Text) : Text := t.rtakeWhile (· != '\n')

@[simp] lemma lastLine_nil : lastLine [] = [] := rfl

lemma lastLine_concat_lineFeed (t : Text) : lastLine (t ++ ['\n']) = [] := by
  simp [lastLine]

lemma lastLine_concat {c : Char} (hc : c ≠ '\n') (t : Text) :
    lastLine (t ++ [c]) = lastLine t ++ [c] := by
  simp [lastLine, hc]

lemma foldl_utf8Size (t : Text) (n : Nat) :
    t.foldl (fun n c => n + c.utf8Size) n = n + byteSize t := by
  induction t generalizing n with
  | nil => rfl
  | cons c t ih =>
    rw [byteSize, List.foldl_cons, List.foldl_cons, ih, ih (0 + c.utf8Size)]
    omega

@[simp] lemma byteSize_nil : byteSize [] = 0 := rfl

@[simp] lemma byteSize_cons (c : Char) (t : Text) :
    byteSize (c :: t) = c.utf8Size + byteSize t := by
  rw [byteSize, List.foldl_cons, foldl_utf8Size, Nat.zero_add]

@[simp] lemma byteSize_append (t u : Text) : byteSize (t ++ u) = byteSize t + byteSize u := by
  rw [byteSize, List.foldl_append, foldl_utf8Size]
  rfl

@[simp] lemma byteSize_reverse (t : Text) : byteSize t.reverse = byteSize t := by
  induction t with
  | nil => rfl
  | cons c t ih =>
    rw [List.reverse_cons, byteSize_append, ih, byteSize_cons, byteSize_cons, byteSize_nil]
    omega

lemma splitBytesFrom?_append (before t u : Text) :
    splitBytesFrom? before (byteSize t) (t ++ u) = some (before.reverse ++ t, u) := by
  induction t generalizing before with
  | nil => cases u <;> simp [splitBytesFrom?]
  | cons c t ih =>
    have hpos := c.utf8Size_pos
    rw [byteSize_cons, List.cons_append, splitBytesFrom?, if_neg (by omega), if_pos (by omega),
      Nat.add_sub_cancel_left, ih]
    simp

lemma append_of_splitBytesFrom? {before t a b : Text} {n : Nat}
    (h : splitBytesFrom? before n t = some (a, b)) : before.reverse ++ t = a ++ b := by
  induction t generalizing before n with
  | nil =>
    rw [splitBytesFrom?] at h
    split at h
    · cases h
      rfl
    · cases h
  | cons c t ih =>
    rw [splitBytesFrom?] at h
    split at h
    · cases h
      rfl
    · split at h
      · rw [← ih h]
        simp
      · cases h

/-- The size of a first part is an offset between two characters, and splits the text there. -/
theorem splitBytes?_append (t u : Text) : splitBytes? (byteSize t) (t ++ u) = some (t, u) :=
  splitBytesFrom?_append [] t u

end Text

namespace Position

/-- The place behind a text, counted afresh: a line for each line feed and a column for each
character behind the last of them. -/
def ofText (t : Text) : Position :=
  ⟨min limit (1 + t.count '\n'), min limit (1 + t.lastLine.length)⟩

lemma line_after {p : Position} (hp : p.line ≤ limit) (t : Text) :
    (p.after t).line = min limit (p.line + t.count '\n') := by
  induction t generalizing p with
  | nil => simp [hp]
  | cons c t ih =>
    rw [after_cons]
    by_cases hc : c = '\n'
    · subst hc
      have hnext : (p.next '\n').line = min limit (p.line + 1) := rfl
      rw [ih (by omega), hnext, List.count_cons_self]
      omega
    · have hnext : p.next c = ⟨p.line, count p.column⟩ := by simp [next, hc]
      rw [ih (by rw [hnext]; exact hp), hnext, List.count_cons_of_ne hc]

lemma column_after_congr {p q : Position} (h : p.column = q.column) (t : Text) :
    (p.after t).column = (q.after t).column := by
  induction t generalizing p q with
  | nil => exact h
  | cons c t ih =>
    rw [after_cons, after_cons]
    apply ih
    by_cases hc : c = '\n' <;> simp [next, hc, h]

/-- Behind text that ends a line, places are those of a fresh start, that many lines further
down. -/
lemma after_of_endsLine {a : Text} (ha : Text.EndsLine a) (t : Text) :
    start.after (a ++ t) =
      ⟨min limit ((start.after t).line + a.count '\n'), (start.after t).column⟩ := by
  have hstart : start.line ≤ limit := by decide
  have hcolumn : (start.after a).column = start.column := by
    rcases ha with rfl | ⟨u, rfl⟩
    · rfl
    · rw [after_append]
      rfl
  have hline : (start.after (a ++ t)).line = min limit ((start.after t).line + a.count '\n') := by
    rw [line_after hstart, line_after hstart, List.count_append]
    omega
  have hcolumn' : (start.after (a ++ t)).column = (start.after t).column := by
    rw [after_append]
    exact column_after_congr hcolumn t
  rw [← hline, ← hcolumn']

lemma column_start_after (t : Text) :
    (start.after t).column = min limit (1 + t.lastLine.length) := by
  induction t using List.reverseRecOn with
  | nil => rfl
  | append_singleton t c ih =>
    rw [after_append, after_cons, after_nil]
    by_cases hc : c = '\n'
    · subst hc
      rw [Text.lastLine_concat_lineFeed]
      rfl
    · have hnext : ((start.after t).next c).column = min limit ((start.after t).column + 1) := by
        simp [next, hc, count]
      rw [hnext, ih, Text.lastLine_concat hc, List.length_append, List.length_singleton]
      omega

/-- Counting on from the start character by character comes to the same as counting afresh: the
limit is reached at most once. -/
theorem start_after (t : Text) : start.after t = ofText t := by
  have hline : (start.after t).line = (ofText t).line := line_after (by decide) t
  have hcolumn : (start.after t).column = (ofText t).column := column_start_after t
  cases hp : start.after t
  simp_all

end Position

namespace Reader

/-- A reader at a place of a source: its offset lies within the source and between two
characters, and its line and column are those counted over the text before it. -/
structure At (source : Text) (r : Reader) : Prop where
  offset_le : r.offset ≤ Text.byteSize source
  split : Text.splitBytes? r.offset source = some (r.consumed.reverse, r.rest)
  position : r.position = Position.ofText r.consumed.reverse

variable {source : Text} {r : Reader}

lemma at_iff :
    r.At source ↔ r.source = source ∧ r.position = Position.start.after r.consumed.reverse := by
  rw [Position.start_after]
  constructor
  · intro h
    exact ⟨(Text.append_of_splitBytesFrom? h.split).symm, h.position⟩
  · rintro ⟨rfl, hposition⟩
    have hoffset : r.offset = Text.byteSize r.consumed.reverse := (Text.byteSize_reverse _).symm
    refine ⟨?_, ?_, hposition⟩
    · rw [hoffset, Reader.source, Text.byteSize_append]
      omega
    · rw [hoffset]
      exact Text.splitBytes?_append _ _

lemma at_ofText (source : Text) : (ofText source).At source := at_iff.2 ⟨rfl, rfl⟩

lemma At.advance (h : r.At source) (n : Nat) : (r.advance n).At source := by
  obtain ⟨hsource, hposition⟩ := at_iff.1 h
  refine at_iff.2 ⟨by rw [source_advance, hsource], ?_⟩
  rw [position_advance, consumed_advance, hposition, List.reverse_append, List.reverse_reverse,
    Position.after_append]

/-- A place of a source is known by its offset. -/
lemma At.eq_of_offset_eq {q : Reader} (hr : r.At source) (hq : q.At source)
    (h : r.offset = q.offset) : r = q := by
  have hsplit := hr.split.symm.trans (h ▸ hq.split)
  simp only [Option.some.injEq, Prod.mk.injEq, List.reverse_inj] at hsplit
  have hposition := hr.position.trans (hsplit.1 ▸ hq.position.symm)
  cases r
  cases q
  simp_all

end Reader
end Mustache
