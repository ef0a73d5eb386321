import Mustache.Text.Blank

/-! Values of the JSON data format. A string is a list of *codes*, since an escape may name one
half of a surrogate pair, which is no character; `text?` joins the halves and refuses a half
that stands alone. Objects keep their fields in order, repeated keys included. -/
namespace Mustache.Json

/-- A string of the format: Unicode scalar values and halves of surrogate pairs. -/
abbrev Codes := List Nat

/-- A value of the format. A number is kept as it is written. -/
inductive Value where
  | null
  | bool (b : Bool)
  | number (literal : Text)
  | string (codes : Codes)
  | array (items : List Value)
  | object (fields : List (Codes × Value))
  deriving Repr

namespace Codes

/-- The codes of a text. -/
def ofText (t : Text) : Codes := t.map Char.toNat

/-- The first half of a surrogate pair. -/
def isHigh (n : Nat) : Bool := 0xD800 ≤ n && n ≤ 0xDBFF

/-- The second half of a surrogate pair. -/
def isLow (n : Nat) : Bool := 0xDC00 ≤ n && n ≤ 0xDFFF

/-- The character that a surrogate pair stands for. -/
def join (high low : Nat) : Char :=
  Char.ofNat (0x10000 + (high - 0xD800) * 0x400 + (low - 0xDC00))

/-- The text of the remaining codes behind a text that is given newest character first. -/
def textFrom? (done : Text) : Codes → Option Text
  | [] => some done.reverse
  | [n] => if n.isValidChar then some (Char.ofNat n :: done).reverse else none
  | n :: m :: rest =>
    if n.isValidChar then textFrom? (Char.ofNat n :: done) (m :: rest)
    else if isHigh n && isLow m then textFrom? (join n m :: done) rest
    else none

/-- The text of a string, unless half a surrogate pair stands alone in it. -/
def text? (codes : Codes) : Option Text := textFrom? [] codes

example : text? [0x61, 0xD83D, 0xDE00] = some ['a', '😀'] := by decide

example : text? [0xD83D, 0x61] = none := by decide

end Codes

namespace Value

/-- A string value. -/
def ofText (t : Text) : Value := .string (Codes.ofText t)

/-- The text of a string value. -/
def text? : Value → Option Text
  | .string codes => Codes.text? codes
  | _ => none

end Value
end Mustache.Json
