import Mustache.Failure
import Mustache.Text.Lines

/-! A failure shown in its source: the line it is on, and a caret under its column. -/
namespace Mustache.Diagnostic

/-- The line of a position in a source; a position outside the source is on an empty line. -/
def quotedLine (source : Text) (position : Position) : Text :=
  (Text.lines source)[position.line - 1]?.getD []

/-- What stands before the caret: a tab under every tab of the line and a space under every other
character, so that both lines are equally wide however wide tabs are. -/
def marker (line : Text) (position : Position) : Text :=
  (line.take (position.column - 1)).map fun c => if c == '\t' then '\t' else ' '

/-- The report of a failure in the source of a file. -/
def render (path source : Text) (f : Failure) : Text :=
  let number := Text.ofNat f.position.line
  let gutter := List.replicate number.length ' '
  let line := quotedLine source f.position
  path ++ ':' :: number ++ ':' :: Text.ofNat f.position.column ++ ": error: ".toList ++
      f.defect.message ++ '\n' ::
    gutter ++ " |\n".toList ++
    number ++ " | ".toList ++ line ++ '\n' ::
    gutter ++ " | ".toList ++ marker line f.position ++ "^\n".toList ++
    gutter ++ " = help: ".toList ++ f.defect.help ++ ['\n']

end Mustache.Diagnostic
