import Mustache.Text.Blank

/-! Places in a text as people count them: lines and columns from one, columns in characters.
Both counters stop at a largest value instead of wrapping. -/
namespace Mustache

/-- A line and a column. -/
structure Position where
  line : Nat
  column : Nat
  deriving DecidableEq, Repr

namespace Position

/-- The largest line or column that is counted. -/
def limit : Nat := 4294967295

/-- One more, but never beyond the limit. -/
def count (n : Nat) : Nat := min limit (n + 1)

/-- The place before any character. -/
def start : Position := ⟨1, 1⟩

/-- The place right after a character: a line feed starts a new line. -/
def next (p : Position) (c : Char) : Position :=
  if c == '\n' then ⟨count p.line, 1⟩ else ⟨p.line, count p.column⟩

/-- The place right after a text. -/
def after (p : Position) (t : Text) : Position := t.foldl next p

@[simp] theorem after_nil (p : Position) : p.after [] = p := rfl

@[simp] theorem after_cons (p : Position) (c : Char) (t : Text) :
    p.after (c :: t) = (p.next c).after t := rfl

@[simp] theorem after_append (p : Position) (t u : Text) :
    p.after (t ++ u) = (p.after t).after u := by
  simp [after]

example : start.after "ab\nc".toList = ⟨2, 2⟩ := by decide

end Position
end Mustache
