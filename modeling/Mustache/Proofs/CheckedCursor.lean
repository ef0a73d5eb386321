import Mathlib.Data.List.Infix
import Mustache.Proofs.ByteSearch
import Mustache.Proofs.Sessions

/-! Reading under checks. A cursor keeps its place as a byte offset, which may be any number, and
searches bytes; so every part that it cuts out of a text and every move is checked. From a place
between two characters no check fails, and the cursor does what a reader does. -/
namespace Mustache

/-- What is checked while a template is read. -/
inductive Check where
  /-- A part that is cut out of a text is bounded by offsets between characters, in order. -/
  | cut
  /-- A move goes forward and stays within the source. -/
  | move
  /-- What is skipped comes next. -/
  | skip
  /-- A tag is read where an opening sequence comes next. -/
  | opening
  /-- A loop ends within the rounds that it is given. -/
  | rounds
  deriving DecidableEq, Repr

/-- Why reading stops before the end. -/
inductive Halt where
  | check (check : Check)
  | failure (failure : Failure)
  deriving DecidableEq, Repr

/-- A result, unless a check or the template fails. -/
abbrev Checked (α : Type) := Except Halt α

/-- Stop unless the check holds. -/
def Check.require (check : Check) (holds : Bool) : Checked Unit :=
  if holds then .ok () else .error (.check check)

/-- Cut the part between two byte offsets out of a text. -/
def Text.cut (start stop : Nat) (t : Text) : Checked Text :=
  match Text.slice? start stop t with
  | some part => .ok part
  | none => .error (.check .cut)

/-- The byte offsets of the characters of a text that itself begins at an offset. -/
def Text.offsetsFrom (start : Nat) : Text → List Nat
  | [] => []
  | c :: t => start :: offsetsFrom (start + c.utf8Size) t

/-- The number of bytes before the last one of a kind. -/
def lastIndex? (b : UInt8) (l : List UInt8) : Option Nat :=
  (l.reverse.findIdx? (· == b)).map (l.length - 1 - ·)

/-- The place right after a text, counted over its bytes: the column is that behind the last line
feed, if there is one. -/
def Position.afterBytes (p : Position) (t : Text) : Checked Position :=
  match lastIndex? 10 t.bytes with
  | some last => do
    let line ← Text.cut (last + 1) (Text.byteSize t) t
    return ⟨min limit (p.line + min limit (t.bytes.count 10)),
      min limit (min limit line.length + 1)⟩
  | none => return ⟨p.line, min limit (p.column + min limit t.length)⟩

/-- A place in a source, kept as a byte offset. -/
structure Cursor where
  source : Text
  offset : Nat
  position : Position
  deriving DecidableEq, Repr

namespace Cursor

/-- The place before the first character. -/
def ofText (source : Text) : Cursor := ⟨source, 0, .start⟩

/-- The place behind the first part of a source: its offset lies between two characters, and its
line and column are counted over that part. -/
def behind (a b : Text) : Cursor := ⟨a ++ b, Text.byteSize a, .ofText a⟩

/-- The offset is not before the end of the source. -/
def atEnd (c : Cursor) : Bool := Text.byteSize c.source ≤ c.offset

/-- What comes next. -/
def rest (c : Cursor) : Checked Text := Text.cut c.offset (Text.byteSize c.source) c.source

/-- The source between two byte offsets. -/
def slice (c : Cursor) (start stop : Nat) : Checked Text := Text.cut start stop c.source

/-- The source from a byte offset up to the place. -/
def sliceFrom (c : Cursor) (start : Nat) : Checked Text := c.slice start c.offset

/-- The next `n` characters, or all that are left: they end where the next one begins. -/
def peek (c : Cursor) (n : Nat) : Checked Text := do
  let rest ← c.rest
  Text.cut 0 ((Text.offsetsFrom 0 rest)[n]?.getD (Text.byteSize rest)) rest

/-- Move to a byte offset. -/
def moveTo (c : Cursor) (stop : Nat) : Checked Cursor := do
  Check.move.require (c.offset ≤ stop && stop ≤ Text.byteSize c.source)
  let passed ← Text.cut c.offset stop c.source
  return { c with offset := stop, position := ← c.position.afterBytes passed }

/-- Move to a byte offset and cut out what was passed. -/
def readTo (c : Cursor) (stop : Nat) : Checked (Text × Cursor) := do
  let after ← c.moveTo stop
  return (← Text.cut c.offset after.offset after.source, after)

/-- Move to the end of the source. -/
def toEnd (c : Cursor) : Checked Cursor := c.moveTo (Text.byteSize c.source)

def startsWith (c : Cursor) (p : Text) : Checked Bool := return p.isPrefixOf (← c.rest)

/-- The next character, and the place after it. -/
def next? (c : Cursor) : Checked (Option (Char × Cursor)) := do
  match ← c.rest with
  | a :: _ => return some (a, ← c.moveTo (c.offset + a.utf8Size))
  | [] => return none

/-- Read `n` characters, or all that are left. -/
def take (c : Cursor) (n : Nat) : Checked (Text × Cursor) := do
  let taken ← c.peek n
  return (taken, ← c.moveTo (c.offset + Text.byteSize taken))

/-- Read up to the next occurrence of a pattern among the bytes. -/
def takeUntil (c : Cursor) (p : Text) : Checked (Option Text × Cursor) := do
  match firstIndex? p.bytes (Text.bytes (← c.rest)) with
  | some n =>
    let (t, found) ← c.readTo (c.offset + n)
    return (some t, found)
  | none => return (none, ← c.toEnd)

def takeUntilOrEnd (c : Cursor) (p : Text) : Checked (Text × Cursor) := do
  match firstIndex? p.bytes (Text.bytes (← c.rest)) with
  | some n => c.readTo (c.offset + n)
  | none => c.readTo (Text.byteSize c.source)

def takeThrough (c : Cursor) (p : Text) : Checked (Option Text × Cursor) := do
  match ← c.takeUntil p with
  | (some t, found) => return (some t, ← found.moveTo (found.offset + Text.byteSize p))
  | (none, stop) => return (none, stop)

def takeUntilChar (c : Cursor) (q : Char → Bool) : Checked (Option Text × Cursor) := do
  let rest ← c.rest
  match rest.findIdx? q with
  | some n =>
    let (t, found) ← c.readTo (c.offset + Text.byteSize (rest.take n))
    return (some t, found)
  | none => return (none, ← c.toEnd)

def accept (c : Cursor) (p : Text) : Checked (Bool × Cursor) := do
  if ← c.startsWith p then return (true, ← c.moveTo (c.offset + Text.byteSize p))
  else return (false, c)

/-- Where the characters of a class end that come next, and how many they are, given an offset
and a number to count on from. Counting stops at a limit, if there is one. -/
def runFrom (q : Char → Bool) (limit : Option Nat) (stop count : Nat) : Text → Nat × Nat
  | [] => (stop, count)
  | a :: later =>
    if limit.any (· ≤ count) || !q a then (stop, count)
    else runFrom q limit (stop + a.utf8Size) (count + 1) later

/-- Move over the characters of a class that come next, and count them. -/
def skipWhile (c : Cursor) (q : Char → Bool) (limit : Option Nat) : Checked (Nat × Cursor) := do
  let (stop, count) := runFrom q limit c.offset 0 (← c.rest)
  return (count, ← c.moveTo stop)

def skipBlanks (c : Cursor) : Checked (Nat × Cursor) := c.skipWhile isBlank none

/-- The indentation of the current line, cut out of what precedes the place. -/
def lineIndent? (c : Cursor) : Checked (Option Text) := do
  let before ← Text.cut 0 c.offset c.source
  let kept := Text.dropEndWhile isIndent before
  if kept.isEmpty || kept.getLast? == some '\n' then
    return some (← Text.cut (Text.byteSize kept) (Text.byteSize before) before)
  else return none

/-- The blank rest of the current line, cut out of what comes next. -/
def lineTail? (c : Cursor) : Checked (Option Text) := do
  let rest ← c.rest
  match rest.dropWhile isLineBlank with
  | [] => return some rest
  | a :: later =>
    if a == '\n' then
      return some (← Text.cut 0 (Text.byteSize rest - Text.byteSize (a :: later) + 1) rest)
    else return none

/-- Move over a text, which has to come next. -/
def skip (c : Cursor) (t : Text) : Checked Cursor := do
  Check.skip.require (← c.startsWith t)
  c.moveTo (c.offset + Text.byteSize t)

end Cursor

lemma Checked.ok_bind {α β : Type} (a : α) (f : α → Checked β) :
    (Except.ok a >>= f : Checked β) = f a := rfl

namespace Text

/-- A part with text on either side can be cut out. -/
lemma cut_append (t u v : Text) :
    cut (byteSize t) (byteSize t + byteSize u) (t ++ (u ++ v)) = .ok u := by
  have hslice : slice? (byteSize t) (byteSize t + byteSize u) (t ++ (u ++ v)) = some u := by
    rw [slice?, if_neg (by omega), splitBytes?_append, Nat.add_sub_cancel_left]
    simp only [Option.bind_eq_bind, Option.bind_some, splitBytes?_append]
    rfl
  rw [cut, hslice]

lemma cut_front (t u : Text) : cut 0 (byteSize t) (t ++ u) = .ok t := by
  simpa using cut_append [] t u

lemma cut_back (t u : Text) : cut (byteSize t) (byteSize (t ++ u)) (t ++ u) = .ok u := by
  simpa using cut_append t u []

lemma getD_offsetsFrom (start n : Nat) (t : Text) :
    (offsetsFrom start t)[n]?.getD (start + byteSize t) = start + byteSize (t.take n) := by
  induction t generalizing start n with
  | nil => simp [offsetsFrom]
  | cons c t ih =>
    cases n with
    | zero => simp [offsetsFrom]
    | succ n =>
      rw [offsetsFrom, List.getElem?_cons_succ, List.take_succ_cons, byteSize_cons, byteSize_cons,
        ← Nat.add_assoc, ih, Nat.add_assoc]

lemma lineFeed_mem_bytes_iff {t : Text} : 10 ∈ t.bytes ↔ '\n' ∈ t := by
  have hfind := firstIndex?_bytes ['\n'] t
  rw [show bytes ['\n'] = [10] from rfl] at hfind
  rw [← List.singleton_infix_iff, ← List.singleton_infix_iff, ← not_iff_not,
    ← firstIndex?_eq_none_iff, ← firstIndex?_eq_none_iff, hfind, Option.map_eq_none_iff]

/-- Line feeds can be counted among the bytes. -/
lemma count_bytes_lineFeed (t : Text) : t.bytes.count 10 = t.count '\n' := by
  induction t with
  | nil => rfl
  | cons c t ih =>
    rw [bytes_cons, List.count_append, ih]
    by_cases hc : c = '\n'
    · subst hc
      rw [List.count_cons_self, Nat.add_comm]
      rfl
    · have hno : 10 ∉ bytes [c] := by
        rw [lineFeed_mem_bytes_iff, List.mem_singleton]
        exact Ne.symm hc
      rw [List.count_cons_of_ne hc, List.count_eq_zero_of_not_mem (by simpa using hno),
        Nat.zero_add]

/-- A text with a line feed splits behind its last one. -/
lemma exists_append_lineFeed {t : Text} (h : '\n' ∈ t) : ∃ u v, t = u ++ '\n' :: v ∧ '\n' ∉ v := by
  obtain ⟨v, u, hsplit, hv⟩ := List.eq_append_cons_of_mem (List.mem_reverse.2 h)
  refine ⟨u.reverse, v.reverse, ?_, by simpa using hv⟩
  rw [← List.reverse_reverse t, hsplit]
  simp

end Text

lemma findIdx?_reverse_eq_none {b : UInt8} {l : List UInt8} (h : b ∉ l) :
    l.reverse.findIdx? (· == b) = none := by
  rw [List.findIdx?_eq_none_iff]
  intro a ha
  exact beq_false_of_ne fun hab => h (hab ▸ List.mem_reverse.1 ha)

lemma lastIndex?_append {b : UInt8} {l r : List UInt8} (h : b ∉ r) :
    lastIndex? b (l ++ b :: r) = some l.length := by
  have hfind : (l ++ b :: r).reverse.findIdx? (· == b) = some r.length := by
    simp [List.findIdx?_append, findIdx?_reverse_eq_none h, List.findIdx?_cons]
  rw [lastIndex?, hfind, Option.map_some, List.length_append, List.length_cons]
  congr 1
  omega

lemma lastIndex?_of_notMem {b : UInt8} {l : List UInt8} (h : b ∉ l) : lastIndex? b l = none := by
  rw [lastIndex?, findIdx?_reverse_eq_none h, Option.map_none]

namespace Position

variable {p : Position} {t : Text}

lemma eq_of_line_of_column {q : Position} (hline : p.line = q.line)
    (hcolumn : p.column = q.column) : p = q := by
  cases p
  cases q
  simp_all

lemma column_after_of_notMem (hp : p.column ≤ limit) (ht : '\n' ∉ t) :
    (p.after t).column = min limit (p.column + t.length) := by
  induction t generalizing p with
  | nil => simp [hp]
  | cons c t ih =>
    rw [List.mem_cons, not_or] at ht
    have hnext : (p.next c).column = min limit (p.column + 1) := by
      simp [next, Ne.symm ht.1, count]
    rw [after_cons, ih (by omega) ht.2, hnext, List.length_cons]
    omega

/-- Counting over the bytes of a text comes to the place right after it. -/
lemma afterBytes_eq (hline : p.line ≤ limit) (hcolumn : p.column ≤ limit) :
    p.afterBytes t = .ok (p.after t) := by
  by_cases ht : '\n' ∈ t
  · -- Only what follows the last line feed counts for the column; it is cut out right behind the
    -- byte of that line feed.
    obtain ⟨u, v, rfl, hv⟩ := Text.exists_append_lineFeed ht
    have hbytes : Text.bytes (u ++ '\n' :: v) = Text.bytes u ++ 10 :: Text.bytes v := by simp; rfl
    have hlast : lastIndex? 10 (Text.bytes (u ++ '\n' :: v)) = some (Text.byteSize u) := by
      rw [hbytes, lastIndex?_append (mt Text.lineFeed_mem_bytes_iff.1 hv), Text.length_bytes]
    have hcut : Text.cut (Text.byteSize u + 1) (Text.byteSize (u ++ '\n' :: v)) (u ++ '\n' :: v) =
        .ok v := by
      have hsize : '\n'.utf8Size = 1 := rfl
      simpa [hsize] using Text.cut_back (u ++ ['\n']) v
    have hcolumn' : (p.after (u ++ '\n' :: v)).column = min limit (1 + v.length) := by
      rw [after_append, after_cons]
      exact column_after_of_notMem (show 1 ≤ limit by decide) hv
    rw [afterBytes, hlast]
    simp only [hcut, Checked.ok_bind, Text.count_bytes_lineFeed]
    refine congrArg Except.ok (eq_of_line_of_column ?_ ?_)
    · rw [line_after hline]
      dsimp only
      omega
    · rw [hcolumn']
      dsimp only
      omega
  · rw [afterBytes, lastIndex?_of_notMem (mt Text.lineFeed_mem_bytes_iff.1 ht)]
    refine congrArg Except.ok (eq_of_line_of_column ?_ ?_)
    · rw [line_after hline, List.count_eq_zero_of_not_mem ht]
      dsimp only
      omega
    · rw [column_after_of_notMem hcolumn ht]
      dsimp only
      omega

end Position

/-- The loop that counts comes to the characters of the class, as far as the limit goes. -/
lemma Cursor.runFrom_eq (q : Char → Bool) (limit : Option Nat) (stop count : Nat) (t : Text) :
    runFrom q limit stop count t =
      (stop + Text.byteSize (t.take (Reader.runLength q (limit.map (· - count)) t)),
        count + Reader.runLength q (limit.map (· - count)) t) := by
  induction t generalizing stop count with
  | nil => cases limit <;> simp [runFrom, Reader.runLength]
  | cons a t ih =>
    by_cases hq : q a = true
    · cases limit with
      | none => simp [runFrom, hq, ih, Reader.runLength, Nat.add_assoc, Nat.add_comm 1]
      | some most =>
        by_cases hmost : most ≤ count
        · simp [runFrom, hmost, Reader.runLength, Nat.sub_eq_zero_of_le hmost]
        · obtain ⟨left, hleft⟩ : ∃ left, most - count = left + 1 := ⟨most - count - 1, by omega⟩
          have hnext : most - (count + 1) = left := by omega
          simp [runFrom, hq, hmost, ih, Reader.runLength, hleft, hnext, Nat.add_assoc,
            Nat.add_min_add_right, Nat.add_comm 1]
    · cases limit <;> simp [runFrom, hq, Reader.runLength]

namespace Reader

/-- The place of a reader as an offset. -/
def cursor (r : Reader) : Cursor := ⟨r.source, r.offset, r.position⟩

@[simp] lemma source_cursor (r : Reader) : r.cursor.source = r.source := rfl

@[simp] lemma offset_cursor (r : Reader) : r.cursor.offset = r.offset := rfl

variable {source t : Text} {r r' : Reader}

lemma offset_eq (r : Reader) : r.offset = Text.byteSize r.consumed.reverse :=
  (Text.byteSize_reverse _).symm

lemma Passes.same_source (h : r.Passes t r') : r'.source = r.source := by
  rw [h.2, source_advance]

lemma Passes.source_eq (h : r.Passes t r') :
    r.source = r.consumed.reverse ++ (t ++ r'.rest) := by
  rw [Reader.source, h.rest]

lemma Passes.offset (h : r.Passes t r') : r'.offset = r.offset + Text.byteSize t := by
  rw [Reader.offset, h.consumed, Text.byteSize_append, Text.byteSize_reverse, Reader.offset,
    Nat.add_comm]

lemma Passes.at (h : r.Passes t r') (hr : r.At source) : r'.At source := by
  rw [h.2]
  exact hr.advance _

lemma offset_add_rest (r : Reader) :
    r.offset + Text.byteSize r.rest = Text.byteSize r.source := by
  rw [offset_eq, ← Text.byteSize_append]
  rfl

/-- A place of a source is known by the text before it. -/
lemma At.cursor_eq (hr : r.At source) : r.cursor = .behind r.consumed.reverse r.rest := by
  rw [cursor, hr.position, offset_eq]
  rfl

lemma atEnd_cursor (r : Reader) : r.cursor.atEnd = r.atEnd := by
  rw [Cursor.atEnd, source_cursor, offset_cursor, ← offset_add_rest, atEnd]
  cases r.rest with
  | nil => simp
  | cons c t =>
    have hpos := c.utf8Size_pos
    rw [Text.byteSize_cons, List.isEmpty_cons, decide_eq_false_iff_not]
    omega

/-- From a place between two characters, what comes next can be cut out. -/
@[simp] lemma rest_cursor (r : Reader) : r.cursor.rest = .ok r.rest := by
  rw [Cursor.rest, cursor, offset_eq]
  exact Text.cut_back _ _

lemma peek_cursor (r : Reader) (n : Nat) : r.cursor.peek n = .ok (r.peek n) := by
  have hstop := Text.getD_offsetsFrom 0 n r.rest
  rw [Nat.zero_add, Nat.zero_add] at hstop
  rw [Cursor.peek, rest_cursor, Checked.ok_bind]
  simp only [hstop]
  nth_rewrite 2 [← List.take_append_drop n r.rest]
  exact Text.cut_front _ _

lemma cut_of_passes (h : r.Passes t r') : Text.cut r.offset r'.offset r.source = .ok t := by
  rw [h.offset, offset_eq, h.source_eq]
  exact Text.cut_append _ _ _

/-- Moving over a text that comes next passes every check. -/
lemma moveTo_of_passes (hr : r.At source) (h : r.Passes t r') :
    r.cursor.moveTo (r.offset + Text.byteSize t) = .ok r'.cursor := by
  have hcut : Text.cut r.offset (r.offset + Text.byteSize t) r.source = .ok t := by
    rw [← h.offset]
    exact cut_of_passes h
  have hbound : r.offset + Text.byteSize t ≤ Text.byteSize r.source := by
    rw [offset_eq, h.source_eq, Text.byteSize_append, Text.byteSize_append]
    omega
  have hposition : r'.position = r.position.after t := by
    rw [h.2, position_advance, h.rest, List.take_left]
  have hafter : r.position.afterBytes t = .ok (r.position.after t) := by
    rw [hr.position]
    exact Position.afterBytes_eq (Nat.min_le_left _ _) (Nat.min_le_left _ _)
  simp only [Cursor.moveTo, cursor, Check.require, Nat.le_add_right, hbound, decide_true,
    Bool.and_self, if_true, Checked.ok_bind, hcut, hafter]
  rw [← h.offset, ← h.same_source, ← hposition]
  rfl

lemma readTo_of_passes (hr : r.At source) (h : r.Passes t r') :
    r.cursor.readTo (r.offset + Text.byteSize t) = .ok (t, r'.cursor) := by
  have hcut : Text.cut r.cursor.offset r'.cursor.offset r'.cursor.source = .ok t := by
    rw [source_cursor, h.same_source]
    exact cut_of_passes h
  rw [Cursor.readTo, moveTo_of_passes hr h, Checked.ok_bind, hcut]
  rfl

lemma toEnd_cursor (hr : r.At source) : r.cursor.toEnd = .ok r.toEnd.cursor := by
  rw [Cursor.toEnd, source_cursor, ← offset_add_rest]
  exact moveTo_of_passes hr r.passes_toEnd

lemma startsWith_cursor (r : Reader) (p : Text) : r.cursor.startsWith p = .ok (r.startsWith p) := by
  rw [Cursor.startsWith, rest_cursor]
  rfl

lemma next?_cursor (hr : r.At source) :
    r.cursor.next? = .ok (r.next?.map fun (c, after) => (c, after.cursor)) := by
  rw [Cursor.next?, rest_cursor, Checked.ok_bind]
  cases hrest : r.rest with
  | nil => simp [next?, hrest]; rfl
  | cons c t =>
    have hmove := moveTo_of_passes hr (r.passes_take 1)
    rw [hrest] at hmove
    simp only [List.take_succ_cons, List.take_zero, Text.byteSize_cons, Text.byteSize_nil,
      Nat.add_zero] at hmove
    simp only [next?, hrest]
    rw [offset_cursor, hmove]
    rfl

lemma take_cursor (hr : r.At source) (n : Nat) :
    r.cursor.take n = .ok ((r.take n).1, (r.take n).2.cursor) := by
  rw [Cursor.take, peek_cursor, Checked.ok_bind, offset_cursor, peek,
    moveTo_of_passes hr (r.passes_take n)]
  rfl

lemma takeUntil_cursor (hr : r.At source) (p : Text) :
    r.cursor.takeUntil p = .ok ((r.takeUntil p).1, (r.takeUntil p).2.cursor) := by
  rw [Cursor.takeUntil, rest_cursor, Checked.ok_bind, firstIndex?_bytes, takeUntil]
  cases firstIndex? p r.rest with
  | none =>
    simp only [Option.map_none, toEnd_cursor hr]
    rfl
  | some n =>
    have hread := readTo_of_passes hr (r.passes_take n)
    simp only [Option.map_some]
    rw [offset_cursor, hread]
    rfl

lemma takeUntilOrEnd_cursor (hr : r.At source) (p : Text) :
    r.cursor.takeUntilOrEnd p = .ok ((r.takeUntilOrEnd p).1, (r.takeUntilOrEnd p).2.cursor) := by
  rw [Cursor.takeUntilOrEnd, rest_cursor, Checked.ok_bind, firstIndex?_bytes, takeUntilOrEnd]
  cases firstIndex? p r.rest with
  | none =>
    simp only [Option.map_none]
    rw [source_cursor, ← offset_add_rest]
    exact readTo_of_passes hr r.passes_toEnd
  | some n => exact readTo_of_passes hr (r.passes_take n)

lemma takeUntilChar_cursor (hr : r.At source) (q : Char → Bool) :
    r.cursor.takeUntilChar q = .ok ((r.takeUntilChar q).1, (r.takeUntilChar q).2.cursor) := by
  rw [Cursor.takeUntilChar, rest_cursor, Checked.ok_bind, takeUntilChar]
  cases r.rest.findIdx? q with
  | none =>
    simp only [toEnd_cursor hr]
    rfl
  | some n =>
    have hread := readTo_of_passes hr (r.passes_take n)
    simp only
    rw [offset_cursor, hread]
    rfl

lemma accept_cursor (hr : r.At source) (p : Text) :
    r.cursor.accept p = .ok ((r.accept p).1, (r.accept p).2.cursor) := by
  rw [Cursor.accept, startsWith_cursor, Checked.ok_bind, accept]
  by_cases h : r.startsWith p = true
  · have hmove := moveTo_of_passes hr ⟨List.isPrefixOf_iff_prefix.1 h, rfl⟩
    rw [if_pos h, if_pos h, offset_cursor, hmove]
    rfl
  · rw [if_neg h, if_neg h]
    rfl

lemma accept_cursor_of_startsWith (hr : r.At source) {p : Text} (h : r.startsWith p = true) :
    r.cursor.accept p = .ok (true, (r.skip p).cursor) := by
  rw [accept_cursor hr, accept, if_pos h]
  rfl

lemma skipWhile_cursor (hr : r.At source) (q : Char → Bool) (limit : Option Nat) :
    r.cursor.skipWhile q limit = .ok ((r.skipWhile q limit).1, (r.skipWhile q limit).2.cursor) := by
  have hlimit : limit.map (· - 0) = limit := by cases limit <;> rfl
  rw [Cursor.skipWhile, rest_cursor, Checked.ok_bind, Cursor.runFrom_eq, hlimit, offset_cursor,
    skipWhile]
  simp only
  rw [moveTo_of_passes hr (r.passes_take _), Nat.zero_add]
  rfl

lemma skipBlanks_cursor (hr : r.At source) :
    r.cursor.skipBlanks = .ok (r.skipBlanks.1, r.skipBlanks.2.cursor) :=
  skipWhile_cursor hr isBlank none

/-- Where a search stops, the pattern comes next. -/
lemma startsWith_of_takeUntil {p : Text} (h : r.takeUntil p = (some t, r')) :
    r'.startsWith p = true := by
  rw [takeUntil] at h
  split at h
  next n hfind =>
    obtain ⟨u, w, hrest, rfl, -⟩ := exists_of_firstIndex?_eq_some hfind
    obtain ⟨-, rfl⟩ := Prod.mk.inj h
    rw [startsWith, rest_advance_of_append (by rw [hrest, List.append_assoc]) rfl,
      List.isPrefixOf_iff_prefix]
    exact List.prefix_append _ _
  next => cases h

lemma takeThrough_cursor (hr : r.At source) (p : Text) :
    r.cursor.takeThrough p = .ok ((r.takeThrough p).1, (r.takeThrough p).2.cursor) := by
  rw [Cursor.takeThrough, takeUntil_cursor hr, Checked.ok_bind, takeThrough]
  have hfound := (r.passes_takeUntil p).at hr
  cases htake : r.takeUntil p with
  | mk taken found =>
    rw [htake] at hfound
    cases taken with
    | none => rfl
    | some t =>
      have hnext : p <+: found.rest :=
        List.isPrefixOf_iff_prefix.1 (startsWith_of_takeUntil htake)
      simp only
      rw [offset_cursor, moveTo_of_passes hfound ⟨hnext, rfl⟩]
      rfl

lemma lineIndent?_cursor (r : Reader) : r.cursor.lineIndent? = .ok r.lineIndent? := by
  have hbefore : Text.cut 0 r.cursor.offset r.cursor.source = .ok r.consumed.reverse := by
    rw [offset_cursor, offset_eq]
    exact Text.cut_front _ _
  have hkept : Text.dropEndWhile isIndent r.consumed.reverse =
      (r.consumed.dropWhile isIndent).reverse := by
    rw [Text.dropEndWhile, List.reverse_reverse]
  have hcut : Text.cut (Text.byteSize (r.consumed.dropWhile isIndent).reverse)
      (Text.byteSize r.consumed.reverse) r.consumed.reverse =
        .ok (r.consumed.takeWhile isIndent).reverse := by
    have hsplit : r.consumed.reverse = (r.consumed.dropWhile isIndent).reverse ++
        (r.consumed.takeWhile isIndent).reverse := by
      rw [← List.reverse_append, List.takeWhile_append_dropWhile]
    conv_lhs => rw [hsplit]
    exact Text.cut_back _ _
  simp only [Cursor.lineIndent?, hbefore, Checked.ok_bind, hkept, hcut]
  rw [lineIndent?, Text.lineIndent?]
  cases hdrop : r.consumed.dropWhile isIndent with
  | nil => rfl
  | cons c before =>
    by_cases hc : c = '\n' <;> simp [hc] <;> rfl

lemma lineTail?_cursor (r : Reader) : r.cursor.lineTail? = .ok r.lineTail? := by
  rw [Cursor.lineTail?, rest_cursor, Checked.ok_bind, lineTail?, Text.lineTail?]
  cases hdrop : r.rest.dropWhile isLineBlank with
  | nil => rfl
  | cons c later =>
    by_cases hc : c = '\n'
    · subst hc
      have hsplit : r.rest = r.rest.takeWhile isLineBlank ++ ['\n'] ++ later := by
        rw [List.append_assoc, List.singleton_append, ← hdrop, List.takeWhile_append_dropWhile]
      generalize r.rest.takeWhile isLineBlank = blanks at hsplit ⊢
      rw [hsplit]
      have hfeed : '\n'.utf8Size = 1 := rfl
      have hsize : Text.byteSize (blanks ++ ['\n'] ++ later) - Text.byteSize ('\n' :: later) + 1 =
          Text.byteSize (blanks ++ ['\n']) := by
        simp [hfeed]
      have hcut := Text.cut_front (blanks ++ ['\n']) later
      simp only [hsize, hcut]
      rfl
    · simp [hc]
      rfl

lemma skip_cursor (hr : r.At source) (h : t <+: r.rest) :
    r.cursor.skip t = .ok (r.skip t).cursor := by
  have hstart : r.startsWith t = true := List.isPrefixOf_iff_prefix.2 h
  rw [Cursor.skip, startsWith_cursor, Checked.ok_bind, hstart]
  exact moveTo_of_passes hr ⟨h, rfl⟩

end Reader

/-- A move into a character or back is refused, and so is a text that does not come next. -/
example : Cursor.moveTo ⟨"aé".toList, 1, ⟨1, 2⟩⟩ 2 = .error (.check .cut) ∧
    Cursor.moveTo ⟨"aé".toList, 1, ⟨1, 2⟩⟩ 0 = .error (.check .move) ∧
    Cursor.skip ⟨"aé".toList, 1, ⟨1, 2⟩⟩ "a".toList = .error (.check .skip) := by decide

end Mustache
