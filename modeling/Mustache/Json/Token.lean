import Mustache.Json.Reader
import Mustache.Json.Writer
import Mustache.Token

/-! Tokens in the JSON data format. A token is an object with one field that names its kind; a
comment is that name alone. Tokens with two parts may be read from an object with both parts, in
any order and with other fields beside them, or from a list of the two parts. -/
namespace Mustache

open Json (Codes Value)

/-- The name of a block's mark in the data format. -/
def BlockMark.dataName : BlockMark → Text
  | .plain => "OpenSection".toList
  | .inverted => "OpenInvertedSection".toList
  | .override => "OpenOverrideSection".toList
  | .parent => "OpenParentSection".toList
  | .closing => "CloseSection".toList

/-- The name of a kind of tokens in the data format. -/
def Kind.dataName : Kind → Text
  | .text => "Text".toList
  | .escaped => "Variable".toList
  | .unescaped => "UnescapedVariable".toList
  | .comment => "Comment".toList
  | .inclusion => "Partial".toList
  | .block mark => mark.dataName
  | .setDelimiters => "SetDelimiters".toList

namespace Kind

/-- All kinds of tokens. -/
def all : List Kind :=
  [.text, .escaped, .unescaped, .comment, .inclusion, .block .plain, .block .inverted,
    .block .override, .block .parent, .block .closing, .setDelimiters]

/-- The kind that a name stands for. -/
def ofDataName? (name : Text) : Option Kind := all.find? (·.dataName == name)

end Kind

/-- The value of a record of two texts. -/
def pairToJson (first second : Text) (a b : Text) : Value :=
  .object [(Codes.ofText first, .ofText a), (Codes.ofText second, .ofText b)]

/-- Read the fields of a record of two texts, given those found so far. A field that is not one
of the two is skipped, whatever its value; one that comes twice is refused. -/
def fieldsOfJson? (first second : Text) (a b : Option Text) :
    List (Codes × Value) → Option (Text × Text)
  | [] => do return (← a, ← b)
  | (key, value) :: fields => do
    let name ← Codes.text? key
    if name == first then
      if a.isSome then none else fieldsOfJson? first second (some (← value.text?)) b fields
    else if name == second then
      if b.isSome then none else fieldsOfJson? first second a (some (← value.text?)) fields
    else fieldsOfJson? first second a b fields

/-- Read a record of two texts. -/
def pairOfJson? (first second : Text) : Value → Option (Text × Text)
  | .array [a, b] => do return (← a.text?, ← b.text?)
  | .object fields => fieldsOfJson? first second none none fields
  | _ => none

namespace Token

/-- The names of the two parts of an inclusion. -/
def inclusionParts : Text × Text := ("name".toList, "indentation".toList)

/-- The names of the two parts of a pair of delimiters. -/
def pairParts : Text × Text := ("open".toList, "close".toList)

/-- The value that stands behind a token's name. -/
def payload : Token → Value
  | .text content => .ofText content
  | .escaped name => .ofText name
  | .unescaped name => .ofText name
  | .comment => .null
  | .inclusion name indentation => pairToJson inclusionParts.1 inclusionParts.2 name indentation
  | .block _ name => .ofText name
  | .setDelimiters pair => pairToJson pairParts.1 pairParts.2 pair.opening pair.closing

/-- The value of a token. -/
def toJson (t : Token) : Value :=
  match t with
  | .comment => .ofText t.kind.dataName
  | _ => .object [(Codes.ofText t.kind.dataName, t.payload)]

/-- The token of a kind and the value behind its name. -/
def ofPayload? (kind : Kind) (v : Value) : Option Token :=
  match kind with
  | .text => v.text?.map .text
  | .escaped => v.text?.map .escaped
  | .unescaped => v.text?.map .unescaped
  | .comment => match v with
    | .null => some .comment
    | _ => none
  | .inclusion => do
    let (name, indentation) ← pairOfJson? inclusionParts.1 inclusionParts.2 v
    return .inclusion name indentation
  | .block mark => v.text?.map (.block mark)
  | .setDelimiters => do
    let (opening, closing) ← pairOfJson? pairParts.1 pairParts.2 v
    return .setDelimiters ⟨opening, closing⟩

/-- Read a token. A name without a value can only be that of a comment. -/
def ofJson? : Value → Option Token
  | .string codes => do
    match ← Kind.ofDataName? (← Codes.text? codes) with
    | .comment => return .comment
    | _ => none
  | .object [(key, value)] => do ofPayload? (← Kind.ofDataName? (← Codes.text? key)) value
  | _ => none

/-- The text of a list of tokens in the data format. -/
def listToJson (tokens : List Token) : Text := (Value.array (tokens.map toJson)).pretty

/-- Read a list of tokens. -/
def listOfJson? (t : Text) : Option (List Token) := do
  match ← Value.read? t with
  | .array items => items.mapM ofJson?
  | _ => none

end Token
end Mustache
