import Mustache.Program.Log
import Mustache.Text.Decimal
import Mustache.Text.Lines

/-! A listener that writes one line for each entry. A filter of a single level, which may be for the
sources that begin with a given text only, lets the entries through that are no more detailed. -/
namespace Mustache.Program

/-- Levels in order, with the most detailed one last. -/
def Level.rank : Level → Nat
  | .error => 1
  | .warn => 2
  | .info => 3
  | .debug => 4
  | .trace => 5

def Level.name : Level → Text
  | .error => "error".toList
  | .warn => "warn".toList
  | .info => "info".toList
  | .debug => "debug".toList
  | .trace => "trace".toList

/-- A field as it is written. -/
def FieldValue.text : FieldValue → Text
  | .number n => Text.ofNat n
  | .flag b => if b then "true".toList else "false".toList
  | .word t => "\"".toList ++ t ++ "\"".toList
  | .display t => t

/-- Fields as they are written, in a row. -/
def fieldsText (fields : List (Text × FieldValue)) : Text :=
  List.intercalate ", ".toList (fields.map fun (name, value) => name ++ '=' :: value.text)

/-- Which entries are written. -/
structure LogFilter where
  source : Text
  /-- The most detailed level that is written, if any is. -/
  level : Option Level
  deriving DecidableEq, Repr

namespace LogFilter

/-- The level that a word stands for; no entry is written if it turns all of them off. -/
def levelOf? (t : Text) : Option (Option Level) :=
  if t == "off".toList then some none
  else if t == "error".toList then some (some .error)
  else if t == "warn".toList then some (some .warn)
  else if t == "info".toList then some (some .info)
  else if t == "debug".toList then some (some .debug)
  else if t == "trace".toList then some (some .trace)
  else none

/-- A character of the name of a source. -/
def isSourceChar (c : Char) : Bool := c.isAlphanum || c == '_' || c == ':' || c == '-'

/-- A filter is written as a level, or as the beginning of a source and a level. -/
def ofText? (t : Text) : Option LogFilter :=
  let head := t.takeWhile isSourceChar
  match t.dropWhile isSourceChar with
  | [] => (levelOf? head).map (⟨[], ·⟩)
  | '=' :: level => if head.isEmpty then none else (levelOf? level).map (⟨head, ·⟩)
  | _ => none

/-- The filter lets an entry through. -/
def passes (f : LogFilter) (entry : Entry) : Bool :=
  f.level.any (entry.level.rank ≤ ·.rank) && f.source.isPrefixOf entry.source

/-- The parts of the work that are under way, the innermost first. -/
def openParts : List Notice → List Entry
  | [] => []
  | .opened entry :: earlier => entry :: openParts earlier
  | .event _ :: earlier => openParts earlier
  | .closed :: earlier => (openParts earlier).tail

/-- What a line is indented by: by two for each part that it belongs to, if that is written, and by
one outside of all of them. -/
def indent (f : LogFilter) (earlier : List Notice) : Text :=
  let depth := ((openParts earlier).filter f.passes).length
  List.replicate (max 1 (2 * depth)) ' '

/-- What the further lines of an entry are written behind. -/
def furtherIndent : Text := "   ".toList

/-- A text as one line, or as several if it holds line feeds, of which all but the first are
indented. -/
def writeLines (t : Text) : Text :=
  match Text.lines t with
  | [] => []
  | first :: further => first ++ '\n' :: further.flatMap (furtherIndent ++ · ++ ['\n'])

/-- A notice as it is written. -/
def write (f : LogFilter) (earlier : List Notice) : Notice → Text
  | .opened entry =>
    writeLines (f.indent earlier ++ entry.source ++ "::".toList ++ entry.title ++ ' ' ::
      fieldsText entry.fields)
  | .event entry =>
    writeLines (f.indent earlier ++ entry.level.name.map Char.toUpper ++ ' ' :: entry.source ++
      ' ' :: entry.title ++ ", ".toList ++ fieldsText entry.fields)
  | .closed => []

/-- The listener that writes what the filter lets through. -/
def listener (f : LogFilter) : Listener where
  shows
    | _, .opened entry | _, .event entry => f.passes entry
    | _, .closed => false
  render := f.write

end LogFilter
end Mustache.Program
