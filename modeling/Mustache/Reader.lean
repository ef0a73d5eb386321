import Mustache.Text.Lines
import Mustache.Text.Position
import Mustache.Text.Search
import Mustache.Text.Utf8

/-! A place in a source text. A reader holds what lies before the place, newest character
first, what lies after it, and the line and column of the place. Every movement is made of
`advance`, so the three parts cannot drift apart. Searches that miss run to the end of the
source: whoever reports the miss then sees where the search gave up. -/
namespace Mustache

/-- A place in a source text. -/
structure Reader where
  /-- The characters before the place, newest first. -/
  consumed : Text
  /-- The characters after the place. -/
  rest : Text
  /-- Line and column of the next character. -/
  position : Position
  deriving DecidableEq, Repr

namespace Reader

/-- The place before the first character. -/
def ofText (source : Text) : Reader := ⟨[], source, .start⟩

/-- Move over the next `n` characters, or over all that are left. -/
def advance : Nat → Reader → Reader
  | 0, r => r
  | _ + 1, ⟨consumed, [], position⟩ => ⟨consumed, [], position⟩
  | n + 1, ⟨consumed, c :: rest, position⟩ => advance n ⟨c :: consumed, rest, position.next c⟩

/-- Nothing is left to read. -/
def atEnd (r : Reader) : Bool := r.rest.isEmpty

/-- The whole text that is read. -/
def source (r : Reader) : Text := r.consumed.reverse ++ r.rest

/-- The number of bytes before the place. -/
def offset (r : Reader) : Nat := Text.byteSize r.consumed

/-- The source between two byte offsets. -/
def slice? (r : Reader) (start stop : Nat) : Option Text := Text.slice? start stop r.source

/-- The source from a byte offset up to the place. -/
def sliceFrom? (r : Reader) (start : Nat) : Option Text := r.slice? start r.offset

/-- The next `n` characters, or all that are left. -/
def peek (r : Reader) (n : Nat) : Text := r.rest.take n

/-- The pattern comes next. -/
def startsWith (r : Reader) (p : Text) : Bool := p.isPrefixOf r.rest

/-- The next character, and the place after it. -/
def next? (r : Reader) : Option (Char × Reader) :=
  match r.rest with
  | [] => none
  | c :: _ => some (c, r.advance 1)

/-- Read `n` characters, or all that are left. -/
def take (r : Reader) (n : Nat) : Text × Reader := (r.peek n, r.advance n)

/-- Move to the end of the source. -/
def toEnd (r : Reader) : Reader := r.advance r.rest.length

/-- Read up to the next occurrence of a pattern, which stays unread; a miss runs to the end. -/
def takeUntil (r : Reader) (p : Text) : Option Text × Reader :=
  match firstIndex? p r.rest with
  | some n => (some (r.peek n), r.advance n)
  | none => (none, r.toEnd)

/-- Read up to the next occurrence of a pattern, or everything that is left. -/
def takeUntilOrEnd (r : Reader) (p : Text) : Text × Reader :=
  match firstIndex? p r.rest with
  | some n => (r.peek n, r.advance n)
  | none => (r.rest, r.toEnd)

/-- Read up to the next occurrence of a pattern and move over the pattern as well; a miss runs
to the end. -/
def takeThrough (r : Reader) (p : Text) : Option Text × Reader :=
  match r.takeUntil p with
  | (some t, found) => (some t, found.advance p.length)
  | (none, stop) => (none, stop)

/-- Read up to the next character of a class, which stays unread; a miss runs to the end. -/
def takeUntilChar (r : Reader) (p : Char → Bool) : Option Text × Reader :=
  match r.rest.findIdx? p with
  | some n => (some (r.peek n), r.advance n)
  | none => (none, r.toEnd)

/-- Move over a pattern if it comes next. -/
def accept (r : Reader) (p : Text) : Bool × Reader :=
  if r.startsWith p then (true, r.advance p.length) else (false, r)

/-- How many characters of a class come next, counted up to a limit if there is one. -/
def runLength (p : Char → Bool) (limit : Option Nat) (t : Text) : Nat :=
  let n := (t.takeWhile p).length
  match limit with
  | some most => min n most
  | none => n

/-- Move over the characters of a class that come next, at most `limit` of them if that is
given, and count them. -/
def skipWhile (r : Reader) (p : Char → Bool) (limit : Option Nat) : Nat × Reader :=
  let n := runLength p limit r.rest
  (n, r.advance n)

/-- Move over the blanks that come next, line feeds included, and count them. -/
def skipBlanks (r : Reader) : Nat × Reader := r.skipWhile isBlank none

/-- The indentation of the current line, if nothing else precedes the place on it. -/
def lineIndent? (r : Reader) : Option Text := Text.lineIndent? r.consumed

/-- What is left of the current line, its line feed included, if that is blank. -/
def lineTail? (r : Reader) : Option Text := Text.lineTail? r.rest

/-- Move over a text that is known to come next. -/
def skip (r : Reader) (t : Text) : Reader := r.advance t.length

@[simp] theorem advance_zero (r : Reader) : r.advance 0 = r := rfl

theorem rest_advance (r : Reader) (n : Nat) : (r.advance n).rest = r.rest.drop n := by
  fun_induction advance n r with
  | case1 r => simp
  | case2 n consumed position => simp
  | case3 n consumed c rest position ih => simpa using ih

theorem consumed_advance (r : Reader) (n : Nat) :
    (r.advance n).consumed = (r.rest.take n).reverse ++ r.consumed := by
  fun_induction advance n r with
  | case1 r => simp
  | case2 n consumed position => simp
  | case3 n consumed c rest position ih => simpa using ih

theorem position_advance (r : Reader) (n : Nat) :
    (r.advance n).position = r.position.after (r.rest.take n) := by
  fun_induction advance n r with
  | case1 r => simp
  | case2 n consumed position => simp
  | case3 n consumed c rest position ih => simpa using ih

/-- Moving never changes what is read. -/
@[simp] theorem source_advance (r : Reader) (n : Nat) : (r.advance n).source = r.source := by
  simp [source, rest_advance, consumed_advance, List.append_assoc]

end Reader
end Mustache
