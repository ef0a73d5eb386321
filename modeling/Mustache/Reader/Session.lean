import Mustache.Reader

/-! Sessions: sequences of commands to a reader, with one saved place to return to. A session
answers every command, and a slice that falls outside the source or inside a character is
refused without moving. -/
namespace Mustache.Reader

/-- The classes of characters that a command may name. -/
inductive CharClass where
  | blank
  | nonBlank
  | digit
  | letter
  | any
  | never
  | oneOf (chars : Text)
  deriving DecidableEq, Repr

/-- Membership in a class; digits and letters are those of ASCII. -/
def CharClass.contains : CharClass → Char → Bool
  | .blank, c => isBlank c
  | .nonBlank, c => !isBlank c
  | .digit, c => c.isDigit
  | .letter, c => c.isAlpha
  | .any, _ => true
  | .never, _ => false
  | .oneOf chars, c => chars.contains c

instance : Coe CharClass (Char → Bool) := ⟨CharClass.contains⟩

/-- What a reader can be asked to do. Commands that look at single characters take any condition
on them, a named class for one. -/
inductive Command where
  | source
  | rest
  | slice (start stop : Nat)
  | sliceFrom (start : Nat)
  | peek (n : Nat)
  | startsWith (p : Text)
  | next
  | take (n : Nat)
  | takeUntil (p : Text)
  | takeUntilOrEnd (p : Text)
  | takeThrough (p : Text)
  | takeUntilChar (p : Char → Bool)
  | accept (p : Text)
  | skipWhile (p : Char → Bool) (limit : Option Nat)
  | skipBlanks
  | lineIndent
  | lineTail
  | skip (t : Text)
  | skipLineTail
  | save
  | restore

/-- What a command reports. -/
inductive Answer where
  /-- There is nothing to report, or what was looked for is not there. -/
  | nothing
  | text (t : Text)
  | flag (b : Bool)
  | count (n : Nat)
  /-- The offsets asked for do not bound a part of the source. -/
  | refused
  deriving DecidableEq, Repr

/-- A text that may be missing. -/
def Answer.ofText? : Option Text → Answer
  | some t => .text t
  | none => .nothing

/-- A slice that may be refused. -/
def Answer.ofSlice? : Option Text → Answer
  | some t => .text t
  | none => .refused

/-- A reader together with a saved place. -/
structure Session where
  reader : Reader
  saved : Reader
  deriving DecidableEq, Repr

namespace Session

/-- A session starts at the beginning of the source, and that is the place saved first. -/
def ofText (source : Text) : Session := ⟨.ofText source, .ofText source⟩

/-- Move the reader and keep the saved place. -/
def moveTo (s : Session) (r : Reader) : Session := { s with reader := r }

/-- Carry out one command. -/
def step (s : Session) : Command → Answer × Session
  | .source => (.text s.reader.source, s)
  | .rest => (.text s.reader.rest, s)
  | .slice start stop => (.ofSlice? (s.reader.slice? start stop), s)
  | .sliceFrom start => (.ofSlice? (s.reader.sliceFrom? start), s)
  | .peek n => (.text (s.reader.peek n), s)
  | .startsWith p => (.flag (s.reader.startsWith p), s)
  | .next =>
    match s.reader.next? with
    | some (c, r) => (.text [c], s.moveTo r)
    | none => (.nothing, s)
  | .take n => let (t, r) := s.reader.take n; (.text t, s.moveTo r)
  | .takeUntil p => let (t, r) := s.reader.takeUntil p; (.ofText? t, s.moveTo r)
  | .takeUntilOrEnd p => let (t, r) := s.reader.takeUntilOrEnd p; (.text t, s.moveTo r)
  | .takeThrough p => let (t, r) := s.reader.takeThrough p; (.ofText? t, s.moveTo r)
  | .takeUntilChar p => let (t, r) := s.reader.takeUntilChar p; (.ofText? t, s.moveTo r)
  | .accept p => let (b, r) := s.reader.accept p; (.flag b, s.moveTo r)
  | .skipWhile p limit => let (n, r) := s.reader.skipWhile p limit; (.count n, s.moveTo r)
  | .skipBlanks => let (n, r) := s.reader.skipBlanks; (.count n, s.moveTo r)
  | .lineIndent => (.ofText? s.reader.lineIndent?, s)
  | .lineTail => (.ofText? s.reader.lineTail?, s)
  | .skip t => (.nothing, s.moveTo (s.reader.skip t))
  | .skipLineTail =>
    match s.reader.lineTail? with
    | some t => (.text t, s.moveTo (s.reader.skip t))
    | none => (.nothing, s)
  | .save => (.nothing, { s with saved := s.reader })
  | .restore => (.nothing, { s with reader := s.saved })

/-- The session after some commands. -/
def after (s : Session) (commands : List Command) : Session :=
  commands.foldl (fun s c => (s.step c).2) s

end Session
end Mustache.Reader
