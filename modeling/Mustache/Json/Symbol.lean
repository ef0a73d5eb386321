import Mustache.Json.Value

/-! The symbols that values are written with: punctuation, the three words, numbers and strings,
with spaces allowed between them. -/
namespace Mustache.Json

/-- A symbol. -/
inductive Symbol where
  | openArray
  | closeArray
  | openObject
  | closeObject
  | comma
  | colon
  | null
  | bool (b : Bool)
  | number (literal : Text)
  | string (codes : Codes)
  deriving DecidableEq, Repr

namespace Symbol

/-- The characters that may stand between symbols. -/
def isSpace (c : Char) : Bool := c == ' ' || c == '\n' || c == '\r' || c == '\t'

/-- The value of a hexadecimal digit of either case. -/
def hexValue? (c : Char) : Option Nat :=
  if '0' ≤ c && c ≤ '9' then some (c.toNat - '0'.toNat)
  else if 'a' ≤ c && c ≤ 'f' then some (c.toNat - 'a'.toNat + 10)
  else if 'A' ≤ c && c ≤ 'F' then some (c.toNat - 'A'.toNat + 10)
  else none

/-- The code of four hexadecimal digits. -/
def hexCode? (a b c d : Char) : Option Nat := do
  return ((← hexValue? a) * 0x1000 + (← hexValue? b) * 0x100 + (← hexValue? c) * 0x10 +
    (← hexValue? d))

/-- The code that the letter of a short escape stands for. -/
def unescape? (c : Char) : Option Nat :=
  match c with
  | '"' => some 0x22
  | '\\' => some 0x5C
  | '/' => some 0x2F
  | 'b' => some 0x8
  | 'f' => some 0xC
  | 'n' => some 0xA
  | 'r' => some 0xD
  | 't' => some 0x9
  | _ => none

/-- Read a string from behind its opening mark through its closing mark. The codes read so far
are given newest first. Control characters below the space have to be escaped. -/
def readString? (codes : Codes) : Text → Option (Codes × Text)
  | '"' :: rest => some (codes.reverse, rest)
  | '\\' :: 'u' :: a :: b :: c :: d :: rest =>
    match hexCode? a b c d with
    | some n => readString? (n :: codes) rest
    | none => none
  | '\\' :: c :: rest =>
    match unescape? c with
    | some n => readString? (n :: codes) rest
    | none => none
  | c :: rest => if c.toNat < 0x20 || c == '\\' then none else readString? (c.toNat :: codes) rest
  | [] => none

/-- The characters that numbers are written with. -/
def isNumberChar (c : Char) : Bool :=
  c.isDigit || c == '-' || c == '+' || c == '.' || c == 'e' || c == 'E'

/-- What follows at least one digit and all digits after it. -/
def afterDigits? : Text → Option Text
  | c :: rest => if c.isDigit then some (rest.dropWhile Char.isDigit) else none
  | [] => none

/-- What follows the whole part of a number, which begins with a zero only if it is zero. -/
def afterWhole? : Text → Option Text
  | '0' :: rest => some rest
  | t => afterDigits? t

/-- What follows a fraction, if there is one. -/
def afterFraction? : Text → Option Text
  | '.' :: rest => afterDigits? rest
  | t => some t

/-- What follows the sign of an exponent, if there is one. -/
def afterExponentSign : Text → Text
  | '+' :: rest => rest
  | '-' :: rest => rest
  | t => t

/-- What follows an exponent, if there is one. -/
def afterExponent? : Text → Option Text
  | 'e' :: rest => afterDigits? (afterExponentSign rest)
  | 'E' :: rest => afterDigits? (afterExponentSign rest)
  | t => some t

/-- What follows a minus sign, if there is one. -/
def afterMinus : Text → Text
  | '-' :: rest => rest
  | t => t

/-- The text is a number. -/
def isNumber (t : Text) : Bool :=
  (do afterExponent? (← afterFraction? (← afterWhole? (afterMinus t)))) == some []

/-- The symbol that a word of letters is. -/
def ofWord? (word : Text) : Option Symbol :=
  if word == "null".toList then some .null
  else if word == "true".toList then some (.bool true)
  else if word == "false".toList then some (.bool false)
  else none

/-- The symbol that begins with a character, and what follows the symbol. -/
def read? (c : Char) (rest : Text) : Option (Symbol × Text) :=
  match c with
  | '[' => some (.openArray, rest)
  | ']' => some (.closeArray, rest)
  | '\x7b' => some (.openObject, rest)
  | '\x7d' => some (.closeObject, rest)
  | ',' => some (.comma, rest)
  | ':' => some (.colon, rest)
  | '"' => (readString? [] rest).map fun (codes, after) => (.string codes, after)
  | c =>
    if isNumberChar c then
      let literal := c :: rest.takeWhile isNumberChar
      if isNumber literal then some (.number literal, rest.dropWhile isNumberChar) else none
    else
      (ofWord? (c :: rest.takeWhile Char.isAlpha)).map fun s => (s, rest.dropWhile Char.isAlpha)

theorem length_le_of_readString? {codes result : Codes} {t after : Text}
    (h : readString? codes t = some (result, after)) : after.length ≤ t.length := by
  fun_induction readString? codes t <;> simp_all <;> omega

theorem length_dropWhile_le_length (p : Char → Bool) (t : Text) :
    (t.dropWhile p).length ≤ t.length :=
  (List.dropWhile_sublist p).length_le

theorem length_le_of_read? {c : Char} {rest after : Text} {s : Symbol}
    (h : read? c rest = some (s, after)) : after.length ≤ rest.length := by
  unfold read? at h
  split at h <;> try (simp only [Option.some.injEq, Prod.mk.injEq] at h; simp [h.2])
  next =>
    obtain ⟨⟨codes, tail⟩, hread, heq⟩ := Option.map_eq_some_iff.1 h
    simp only [Prod.mk.injEq] at heq
    rw [← heq.2]
    exact length_le_of_readString? hread
  next =>
    simp only at h
    split at h
    · split at h
      · simp only [Option.some.injEq, Prod.mk.injEq] at h
        rw [← h.2]
        exact length_dropWhile_le_length _ _
      · cases h
    · obtain ⟨word, -, heq⟩ := Option.map_eq_some_iff.1 h
      simp only [Prod.mk.injEq] at heq
      rw [← heq.2]
      exact length_dropWhile_le_length _ _

/-- The symbols of a text behind those read so far, which are given newest first. -/
def readAllFrom? (done : List Symbol) (t : Text) : Option (List Symbol) :=
  match _ : t.dropWhile isSpace with
  | [] => some done.reverse
  | c :: rest =>
    match _ : read? c rest with
    | some (s, after) => readAllFrom? (s :: done) after
    | none => none
termination_by t.length
decreasing_by
  have hread := length_le_of_read? ‹read? c rest = some (s, after)›
  have hdrop := length_dropWhile_le_length isSpace t
  rw [‹t.dropWhile isSpace = c :: rest›, List.length_cons] at hdrop
  omega

/-- All symbols of a text, if it is made of nothing else but spaces. -/
def readAll? (t : Text) : Option (List Symbol) := readAllFrom? [] t

end Symbol
end Mustache.Json
