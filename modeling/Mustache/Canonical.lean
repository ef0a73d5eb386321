import Mustache.Layout
import Mustache.Text.Lines
import Mustache.Text.Search

/-! The canonical form of a template: every tag in its shortest spelling under the delimiters in
effect. A tag that can stand alone and is written at the start of a line gets a line of its own,
unless the next tag must not start a line. Text written so far is kept newest character first. -/
namespace Mustache.Canonical

open Layout

/-- The space that keeps a tag's body from closing the tag early: one is needed exactly if the
closing sequence would be found before its place. -/
def separator (closing body : Text) : Text :=
  if firstIndex? closing (body ++ closing) == some body.length then [] else [' ']

/-- A tag with a sign and a body. -/
def tagText (d : Delimiters) (sign body : Text) : Text :=
  d.opening ++ sign ++ body ++ separator d.closing body ++ d.closing

/-- What stands in a tag after its sign. A directive's pair is followed by the sign again. -/
def body : Token → Text
  | .setDelimiters pair => pair.display ++ ['=']
  | token => token.name?.getD []

/-- The canonical spelling of a token: text as it is, anything else as a tag. -/
def spell (d : Delimiters) : Token → Text
  | .text content => content
  | tag => tagText d tag.kind.sigil?.toList (body tag)

/-- A tag that can stand alone gets a line of its own. `written` is what precedes it, newest
first, `later` are the tokens after it, and `next` is what they say about a line start. An
indented inclusion has its indentation written by this module, so its line has to be empty;
indentation in front of any other tag belongs to a text and must not be taken away. -/
def ownsLine (tag : Token) (written : Text) (later : List Token) (next : LineStart) : Bool :=
  match Text.lineIndent? written with
  | none => false
  | some (_ :: _) => false
  | some [] =>
    match tag with
    | .inclusion _ (_ :: _) => true
    | _ => tag.canStandAlone && (lineEnds later || next != .forbidden)

/-- The indentation that is written in front of a tag on a line of its own. -/
def indentation : Token → Text
  | .inclusion _ indentation => indentation
  | _ => []

/-- A token with its line around it, if it has a line of its own. -/
def place (d : Delimiters) (token : Token) (ownLine : Bool) : Text :=
  if ownLine then indentation token ++ spell d token ++ ['\n'] else spell d token

/-- Write tokens behind what is written already, newest character first. The plan starts at the
first of the tokens. -/
def writeFrom (d : Delimiters) (written : Text) : List Token → List LineStart → Text
  | [], _ => written.reverse
  | token :: later, plan =>
    let next := plan.tail
    let own := ownsLine token written later (next.headD .either)
    writeFrom (token.delimitersAfter d) ((place d token own).reverse ++ written) later next

/-- The canonical template of tokens under a starting pair. -/
def write (d : Delimiters) (tokens : List Token) : Text := writeFrom d [] tokens (plan tokens)

example : write .braces [.block .plain ['a'], .text ['x'], .block .closing ['a']] =
    "\x7b\x7b#a\x7d\x7d\nx\x7b\x7b/a\x7d\x7d".toList := by decide

end Mustache.Canonical
