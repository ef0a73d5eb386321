import Mustache.Lexer

/-! What the program lets a listener know while it works. Parts of the work are opened and closed,
and events are told as they happen, each with a level, a source and named values. Which notices are
shown, and how they are worded, is up to the listener. -/
namespace Mustache.Program

/-- How detailed an entry is. -/
inductive Level where
  | error
  | warn
  | info
  | debug
  | trace
  deriving DecidableEq, Repr

/-- The value of a field. -/
inductive FieldValue where
  | number (n : Nat)
  | flag (b : Bool)
  /-- A text that is told as a value. -/
  | word (t : Text)
  /-- A value that is told in the words in which it is displayed. -/
  | display (t : Text)
  deriving DecidableEq, Repr

/-- What is told of a part of the work, or of an event. -/
structure Entry where
  level : Level
  source : Text
  /-- The name of a part, or the message of an event. -/
  title : Text
  fields : List (Text × FieldValue)
  deriving DecidableEq, Repr

/-- What a listener gets to know. -/
inductive Notice where
  /-- A part of the work begins. -/
  | opened (entry : Entry)
  | event (entry : Entry)
  /-- The part that was opened last is over. -/
  | closed
  deriving DecidableEq, Repr

/-- Somebody who shows notices. Both the choice and the wording may depend on the notices before,
which are given newest first. -/
structure Listener where
  shows : List Notice → Notice → Bool
  render : List Notice → Notice → Text

namespace Listener

/-- What is shown of a notice. -/
def shown (l : Listener) (earlier : List Notice) (notice : Notice) : Text :=
  if l.shows earlier notice then l.render earlier notice else []

/-- What is shown of notices, in their order, behind earlier ones. -/
def recordsFrom (l : Listener) (earlier : List Notice) : List Notice → Text
  | [] => []
  | notice :: later => l.shown earlier notice ++ l.recordsFrom (notice :: earlier) later

/-- What is shown of all notices of a run of the program. -/
def records (l : Listener) (notices : List Notice) : Text := l.recordsFrom [] notices

end Listener

/-- Two fields: where something happened. -/
def placeFields (p : Position) : List (Text × FieldValue) :=
  [("line".toList, .number p.line), ("column".toList, .number p.column)]

/-- The entry about a record of a run. -/
def recordEntry : Record → Entry
  | .changed place before after =>
    ⟨.debug, "stache_lexer::scanner".toList, "delimiters changed".toList, placeFields place ++
      [("from".toList, .display before.display), ("to".toList, .display after.display)]⟩
  | .tag place kind standalone =>
    ⟨.trace, "stache_lexer::scanner".toList, "tag".toList, placeFields place ++
      [("kind".toList, .word kind.label.toList), ("standalone".toList, .flag standalone)]⟩
  | .complete tokens =>
    ⟨.debug, "stache_lexer::scanner".toList, "scan complete".toList,
      [("tokens".toList, .number tokens)]⟩

/-- The entry about a run over a source. -/
def runEntry (source : Text) : Entry :=
  ⟨.debug, "stache_lexer".toList, "lex_with".toList,
    [("len".toList, .number (Text.byteSize source))]⟩

/-- The entry about a file whose tokens are listed. -/
def listedEntry (path : Text) (tokens : List Token) : Entry :=
  ⟨.debug, "stache::commands::lex".toList, "lexed file".toList,
    [("path".toList, .display path), ("tokens".toList, .number tokens.length)]⟩

/-- The notices of a run over a source with its records. -/
def runNotices (source : Text) (records : List Record) : List Notice :=
  .opened (runEntry source) :: records.map (.event ∘ recordEntry) ++ [.closed]

end Mustache.Program
