import Mustache.Text.Blank

/-! Texts seen as lines: what surrounds a place on its own line, and the lines of a whole text.
Text before a place is kept newest character first, so looking back is looking at a list from
its front. -/
namespace Mustache.Text

/-- The indentation of the line that a place is on, if nothing else precedes the place there.
`before` holds the characters before the place, newest first. -/
def lineIndent? (before : Text) : Option Text :=
  match before.dropWhile isIndent with
  | [] => some (before.takeWhile isIndent).reverse
  | c :: _ => if c == '\n' then some (before.takeWhile isIndent).reverse else none

/-- The rest of the line at the front of `rest`, its line feed included, if it is blank; the
last line ends where the text does. -/
def lineTail? (rest : Text) : Option Text :=
  match rest.dropWhile isLineBlank with
  | [] => some rest
  | c :: _ => if c == '\n' then some (rest.takeWhile isLineBlank ++ ['\n']) else none

/-- A finished line, newest character first, without the carriage return right before its line
feed. -/
def endLine : Text → Text
  | '\r' :: line => line.reverse
  | line => line.reverse

/-- The lines of a text, given the line under way and the finished lines, all newest first. -/
def linesFrom (done : List Text) (line : Text) : Text → List Text
  | [] => if line.isEmpty then done.reverse else (line.reverse :: done).reverse
  | c :: rest =>
    if c == '\n' then linesFrom (endLine line :: done) [] rest else linesFrom done (c :: line) rest

/-- The lines of a text. A line feed ends a line, a carriage return right before it belongs to
the line's end, and what follows the last line feed is a line only if it is not empty. -/
def lines (t : Text) : List Text := linesFrom [] [] t

@[simp] theorem lineIndent?_nil : lineIndent? [] = some [] := rfl

@[simp] theorem lineTail?_nil : lineTail? [] = some [] := rfl

example : lineIndent? " \t\nx".toList = some "\t ".toList := by decide

example : lineTail? " \r\nx".toList = some " \r\n".toList := by decide

example : lines "a\r\n\nb".toList = ["a".toList, [], "b".toList] := by decide

end Mustache.Text
