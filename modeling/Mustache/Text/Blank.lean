/-! Texts as lists of characters, and the classes of blank characters that templates care
about. A *blank* is any character of the Unicode property White_Space; *indentation* is made
of spaces and tabs only; a *line blank* may also be a carriage return. -/
namespace Mustache

/-- A text is the list of its characters. -/
abbrev Text := List Char

/-- Membership in the Unicode property White_Space. -/
def isBlank (c : Char) : Bool :=
  let n := c.toNat
  (0x9 ≤ n && n ≤ 0xD) || n == 0x20 || n == 0x85 || n == 0xA0 || n == 0x1680 ||
    (0x2000 ≤ n && n ≤ 0x200A) || n == 0x2028 || n == 0x2029 || n == 0x202F ||
    n == 0x205F || n == 0x3000

/-- Indentation is written with spaces and tabs. -/
def isIndent (c : Char) : Bool := c == ' ' || c == '\t'

/-- What may stand between a tag and the end of its line. -/
def isLineBlank (c : Char) : Bool := isIndent c || c == '\r'

@[simp] theorem isBlank_of_isIndent {c : Char} (h : isIndent c = true) : isBlank c = true := by
  simp only [isIndent, Bool.or_eq_true, beq_iff_eq] at h
  rcases h with h | h <;> subst h <;> rfl

namespace Text

/-- Remove the longest run at the end whose characters satisfy `p`. -/
def dropEndWhile (p : Char → Bool) (t : Text) : Text := (t.reverse.dropWhile p).reverse

/-- Remove the blanks at both ends. -/
def trim (t : Text) : Text := dropEndWhile isBlank (t.dropWhile isBlank)

/-- Indentation proper: at least one character, and nothing but spaces and tabs. -/
def isIndentation (t : Text) : Bool := !t.isEmpty && t.all isIndent

/-- A finished word, read newest character first, put in front of later words; an empty one
is no word. -/
def addWord (word : Text) (later : List Text) : List Text :=
  if word.isEmpty then later else word.reverse :: later

/-- The words of a text, given the characters of the word under way, newest first. -/
def wordsFrom (word : Text) : Text → List Text
  | [] => addWord word []
  | c :: rest =>
    if isBlank c then addWord word (wordsFrom [] rest) else wordsFrom (c :: word) rest

/-- The maximal runs of characters that are not blank, in order. -/
def words (t : Text) : List Text := wordsFrom [] t

@[simp] theorem dropEndWhile_nil (p : Char → Bool) : dropEndWhile p [] = [] := rfl

@[simp] theorem trim_nil : trim [] = [] := rfl

example : trim " a b\t\n".toList = "a b".toList := by decide

example : words " <%\t%> ".toList = ["<%".toList, "%>".toList] := by decide

end Text
end Mustache
