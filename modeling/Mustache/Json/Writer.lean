import Mustache.Json.Value

/-! Writing values over several lines: every item and field on a line of its own, two spaces
deeper than its container, and containers without content on one line. In strings the quotation
mark, the reverse solidus and the control characters below the space are escaped, and nothing
else is. What is written so far is kept newest character first. -/
namespace Mustache.Json

/-- The letter of a short escape. -/
def shortEscape? (n : Nat) : Option Char :=
  match n with
  | 0x22 => some '"'
  | 0x5C => some '\\'
  | 0x8 => some 'b'
  | 0xC => some 'f'
  | 0xA => some 'n'
  | 0xD => some 'r'
  | 0x9 => some 't'
  | _ => none

/-- The hexadecimal digit of a number below sixteen. -/
def hexDigit (n : Nat) : Char := Nat.digitChar (n % 16)

/-- A long escape, with four hexadecimal digits. -/
def longEscape (n : Nat) : Text :=
  ['\\', 'u', hexDigit (n / 0x1000), hexDigit (n / 0x100), hexDigit (n / 0x10), hexDigit n]

/-- A code as it is written in a string. -/
def escape (n : Nat) : Text :=
  match shortEscape? n with
  | some c => ['\\', c]
  | none => if 0x20 ≤ n && n.isValidChar then [Char.ofNat n] else longEscape n

/-- Write a text. -/
def put (t written : Text) : Text := t.reverse ++ written

/-- Write a string between quotation marks. -/
def putString (codes : Codes) (written : Text) : Text :=
  '"' :: codes.foldl (fun w n => put (escape n) w) ('"' :: written)

/-- Write the beginning of a line at a depth. -/
def putLine (depth : Nat) (written : Text) : Text :=
  put (List.replicate (2 * depth) ' ') ('\n' :: written)

mutual

/-- Write a value inside containers up to a depth. -/
def putValue (depth : Nat) : Value → Text → Text
  | .null, written => put "null".toList written
  | .bool true, written => put "true".toList written
  | .bool false, written => put "false".toList written
  | .number literal, written => put literal written
  | .string codes, written => putString codes written
  | .array [], written => put "[]".toList written
  | .array (item :: items), written =>
    let first := putValue (depth + 1) item (putLine (depth + 1) ('[' :: written))
    ']' :: putLine depth (putItems (depth + 1) items first)
  | .object [], written => put "\x7b\x7d".toList written
  | .object ((key, value) :: fields), written =>
    let name := put ": ".toList (putString key (putLine (depth + 1) ('\x7b' :: written)))
    '\x7d' :: putLine depth (putFields (depth + 1) fields (putValue (depth + 1) value name))

/-- Write the items after the first. -/
def putItems (depth : Nat) : List Value → Text → Text
  | [], written => written
  | item :: items, written =>
    putItems depth items (putValue depth item (putLine depth (',' :: written)))

/-- Write the fields after the first. -/
def putFields (depth : Nat) : List (Codes × Value) → Text → Text
  | [], written => written
  | (key, value) :: fields, written =>
    let name := put ": ".toList (putString key (putLine depth (',' :: written)))
    putFields depth fields (putValue depth value name)

end

/-- A value written over several lines. -/
def Value.pretty (v : Value) : Text := (putValue 0 v []).reverse

end Mustache.Json
