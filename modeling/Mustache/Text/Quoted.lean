import Mustache.Text.Printable

/-! Text between quotation marks on one line: marks, reverse solidi, line ends, tabs and the null
character have short escapes, and every character that cannot be shown is written as its code
point in hexadecimal digits. -/
namespace Mustache.Text

/-- A code point in lower-case hexadecimal digits without leading zeros. -/
def codeEscape (c : Char) : Text :=
  ['\\', 'u', '\x7b'] ++ Nat.toDigits 16 c.toNat ++ ['\x7d']

/-- A character as it is written between quotation marks. -/
def quoteChar (c : Char) : Text :=
  match c with
  | '"' => ['\\', '"']
  | '\\' => ['\\', '\\']
  | '\n' => ['\\', 'n']
  | '\r' => ['\\', 'r']
  | '\t' => ['\\', 't']
  | '\x00' => ['\\', '0']
  | c => if isPrintable c then [c] else codeEscape c

/-- A text between quotation marks. -/
def quote (t : Text) : Text := '"' :: t.flatMap quoteChar ++ ['"']

example : quote "a\"\n\u00a0'é".toList = "\"a\\\"\\n\\u\x7ba0\x7d'é\"".toList := by decide

end Mustache.Text
