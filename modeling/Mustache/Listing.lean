import Mustache.Text.Decimal
import Mustache.Text.Quoted
import Mustache.Token

/-! The listing of a template's tokens for people: a heading, and a line for each token with its
kind in a column of fixed width. -/
namespace Mustache.Listing

/-- The width of the column of kinds. -/
def kindWidth : Nat := 22

/-- What is said of a token besides its kind. -/
def detail : Token → Text
  | .text content => Text.quote content
  | .inclusion name (c :: indentation) =>
    name ++ " (indent ".toList ++ Text.quote (c :: indentation) ++ [')']
  | .setDelimiters pair => pair.display
  | token => token.name?.getD []

/-- The line of a token, without blanks at its end. -/
def line (token : Token) : Text :=
  let kind := token.kind.label.toList
  let padding := List.replicate (kindWidth - kind.length) ' '
  Text.dropEndWhile isBlank ("  ".toList ++ kind ++ padding ++ ' ' :: detail token)

/-- The heading of the listing of a file. -/
def heading (path : Text) (tokens : List Token) : Text :=
  "Tokens for '".toList ++ path ++ "' (".toList ++ Text.ofNat tokens.length ++
    " tokens):".toList

/-- The listing of a file's tokens. -/
def render (path : Text) (tokens : List Token) : Text :=
  (heading path tokens :: tokens.map line).flatMap (· ++ ['\n'])

end Mustache.Listing
