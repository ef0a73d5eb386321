import Mustache.Text.Blank

/-! Sizes and offsets counted in bytes of the UTF-8 encoding, and decoding of raw bytes. -/
namespace Mustache.Text

/-- The number of bytes that the UTF-8 encoding of a text takes. -/
def byteSize (t : Text) : Nat := t.foldl (fun n c => n + c.utf8Size) 0

/-- Split a text after its first `n` bytes, with the part before, newest first, collected in
`before`. -/
def splitBytesFrom? (before : Text) (n : Nat) : Text → Option (Text × Text)
  | [] => if n = 0 then some (before.reverse, []) else none
  | c :: rest =>
    if n = 0 then some (before.reverse, c :: rest)
    else if c.utf8Size ≤ n then splitBytesFrom? (c :: before) (n - c.utf8Size) rest
    else none

/-- Split a text after its first `n` bytes. There is no such split if the text is shorter or
the offset falls inside a character. -/
def splitBytes? (n : Nat) (t : Text) : Option (Text × Text) := splitBytesFrom? [] n t

/-- The part of a text between two byte offsets, if they are in order and both fall between
characters of the text. -/
def slice? (start stop : Nat) (t : Text) : Option Text := do
  if stop < start then none
  else
    let (_, tail) ← splitBytes? start t
    let (part, _) ← splitBytes? (stop - start) tail
    return part

/-- The text that bytes encode, if they are well-formed UTF-8. -/
def ofBytes? (bytes : List UInt8) : Option Text :=
  (String.fromUTF8? ⟨bytes.toArray⟩).map String.toList

example : slice? 1 3 "aéb".toList = some "é".toList := by decide

example : slice? 1 2 "aéb".toList = none := by decide

end Mustache.Text
