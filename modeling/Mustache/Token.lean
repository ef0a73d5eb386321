import Mustache.Delimiters

/-! The lexical units of a template, one for each stretch of literal text and one for each tag. -/
namespace Mustache

/-- The tags that bound blocks: four that begin a block and one that ends it. -/
inductive BlockMark where
  /-- Begins a block that is written for each item of a value. -/
  | plain
  /-- Begins a block that is written if there is no value. -/
  | inverted
  /-- Begins a block that a template built on this one may replace. -/
  | override
  /-- Begins a block that builds on another template. -/
  | parent
  /-- Ends a block. -/
  | closing
  deriving DecidableEq, Repr

/-- A lexical unit of a template. -/
inductive Token where
  /-- Text that is written as it stands. -/
  | text (content : Text)
  /-- A value, escaped where it is written. -/
  | escaped (name : Text)
  /-- A value, written as it is. -/
  | unescaped (name : Text)
  /-- A remark, of which nothing is kept. -/
  | comment
  /-- Another template, and the indentation of the line that includes it. -/
  | inclusion (name indentation : Text)
  /-- The beginning or the end of a block. -/
  | block (mark : BlockMark) (name : Text)
  /-- The pair that bounds the tags from here on. -/
  | setDelimiters (pair : Delimiters)
  deriving DecidableEq, Repr

/-- The kinds of tokens. -/
inductive Kind where
  | text
  | escaped
  | unescaped
  | comment
  | inclusion
  | block (mark : BlockMark)
  | setDelimiters
  deriving DecidableEq, Repr

/-- The name under which blocks' marks are listed. -/
def BlockMark.label : BlockMark → String
  | .plain => "open_section"
  | .inverted => "open_inverted_section"
  | .override => "open_override_section"
  | .parent => "open_parent_section"
  | .closing => "close_section"

/-- The character that introduces a block's mark. -/
def BlockMark.sigil : BlockMark → Char
  | .plain => '#'
  | .inverted => '^'
  | .override => '$'
  | .parent => '<'
  | .closing => '/'

namespace Kind

/-- The name under which tokens of a kind are listed and logged. -/
def label : Kind → String
  | .text => "text"
  | .escaped => "variable"
  | .unescaped => "unescaped_variable"
  | .comment => "comment"
  | .inclusion => "partial"
  | .block mark => mark.label
  | .setDelimiters => "set_delimiters"

/-- The character that introduces tags of a kind; text and escaped values have none. -/
def sigil? : Kind → Option Char
  | .text => none
  | .escaped => none
  | .unescaped => some '&'
  | .comment => some '!'
  | .inclusion => some '>'
  | .block mark => some mark.sigil
  | .setDelimiters => some '='

/-- Tags of this kind write nothing in their own place, so one that is alone on its line takes
the whole line away. -/
def canStandAlone : Kind → Bool
  | .text => false
  | .escaped => false
  | .unescaped => false
  | .comment => true
  | .inclusion => true
  | .block _ => true
  | .setDelimiters => true

end Kind

namespace Token

/-- The kind of a token. -/
def kind : Token → Kind
  | .text _ => .text
  | .escaped _ => .escaped
  | .unescaped _ => .unescaped
  | .comment => .comment
  | .inclusion _ _ => .inclusion
  | .block mark _ => .block mark
  | .setDelimiters _ => .setDelimiters

/-- What a tag refers to; text, comments and changes of delimiters refer to nothing. -/
def name? : Token → Option Text
  | .text _ => none
  | .escaped name => some name
  | .unescaped name => some name
  | .comment => none
  | .inclusion name _ => some name
  | .block _ name => some name
  | .setDelimiters _ => none

/-- The token is text and no tag. -/
def isText : Token → Bool
  | .text _ => true
  | _ => false

/-- The tag takes its line away if it is alone on it. -/
def canStandAlone (t : Token) : Bool := t.kind.canStandAlone

/-- The pair in effect after a token, given the pair before it. -/
def delimitersAfter (d : Delimiters) : Token → Delimiters
  | .setDelimiters pair => pair
  | _ => d

end Token
end Mustache
