import Mustache.Tag

/-! Splitting a template into tokens. The lexer alternates between stretches of text and single
tags, under a pair of delimiters that directives replace. A tag that writes nothing and is alone
on its line takes the line away: the rest of the line is skipped, and the indentation is taken
off the text before the tag. The run keeps a log of what it did. -/
namespace Mustache

/-- An entry of the log of a run. -/
inductive Record where
  /-- A directive at a place replaced one pair by another. -/
  | changed (place : Position) (before after : Delimiters)
  /-- A tag of a kind was read at a place, and took its line away or not. -/
  | tag (place : Position) (kind : Kind) (standalone : Bool)
  /-- The end of the template was reached with so many tokens. -/
  | complete (tokens : Nat)
  deriving DecidableEq, Repr

/-- The state of a run. -/
structure Lexer where
  reader : Reader
  /-- The pair in effect. -/
  delimiters : Delimiters
  /-- The tokens so far, newest first. -/
  tokens : List Token
  /-- The log so far, newest first. -/
  records : List Record
  deriving DecidableEq, Repr

namespace Lexer

/-- A run that starts at a place of a text under a pair. -/
def start (d : Delimiters) (r : Reader) : Lexer := ⟨r, d, [], []⟩

/-- Take the indentation off a last token that is text, and drop the token if that is all of it.
Tokens are given newest first. -/
def dropIndent : List Token → List Token
  | .text content :: earlier =>
    let kept := Text.dropEndWhile isIndent content
    if kept.isEmpty then earlier else .text kept :: earlier
  | tokens => tokens

/-- Read the text up to the next tag. -/
def readText (s : Lexer) : Lexer :=
  let (content, r) := s.reader.takeUntilOrEnd s.delimiters.opening
  { s with reader := r, tokens := .text content :: s.tokens }

/-- The part of a line after a tag that goes away with it: there is one if the tag can stand
alone and nothing but indentation precedes it, and nothing but blanks follows it, on its line. -/
def lineTail? (token : Token) (before after : Reader) : Option Text :=
  if token.canStandAlone && before.lineIndent?.isSome then after.lineTail? else none

/-- The log after a change of delimiters; other tokens leave it as it is. -/
def logChange (s : Lexer) : Token → List Record
  | .setDelimiters pair => .changed s.reader.position s.delimiters pair :: s.records
  | _ => s.records

/-- Add the token of a tag that begins at the current place and ends at `after`. -/
def addTag (s : Lexer) (token : Token) (after : Reader) : Lexer :=
  let tail := lineTail? token s.reader after
  { reader := after.skip (tail.getD [])
    delimiters := token.delimitersAfter s.delimiters
    tokens := token :: (if tail.isSome then dropIndent s.tokens else s.tokens)
    records := .tag s.reader.position token.kind tail.isSome :: s.logChange token }

/-- Read the tag whose opening sequence comes next. -/
def readTag (s : Lexer) : Except Failure Lexer := do
  let (tag, after) ← Tag.read s.delimiters s.reader
  match tag.token? s.reader.lineIndent? with
  | some token => return s.addTag token after
  | none => throw ⟨after.position, .badDirective⟩

/-- Read one tag or one stretch of text. -/
def step (s : Lexer) : Except Failure Lexer :=
  if s.reader.startsWith s.delimiters.opening then s.readTag else return s.readText

/-- A step either fails or leaves less to read, whatever the delimiters are. -/
theorem length_rest_lt_of_step {s next : Lexer} (hs : s.reader.atEnd = false)
    (h : s.step = .ok next) : next.reader.rest.length < s.reader.rest.length := by
  unfold step at h
  split at h
  next =>
    unfold readTag at h
    cases hread : Tag.read s.delimiters s.reader with
    | error f => rw [hread] at h; cases h
    | ok read =>
      obtain ⟨tag, after⟩ := read
      have hlt := Tag.length_rest_lt_of_read hread
      rw [hread] at h
      simp only [bind, Except.bind] at h
      split at h
      · simp only [pure, Except.pure, Except.ok.injEq] at h
        subst h
        simp only [addTag, Reader.skip, Reader.rest_advance, List.length_drop]
        omega
      · cases h
  next hopen =>
    simp only [pure, Except.pure, Except.ok.injEq] at h
    subst h
    have hpos : 0 < s.reader.rest.length := by
      cases hrest : s.reader.rest <;> simp_all [Reader.atEnd]
    simp only [readText, Reader.takeUntilOrEnd]
    split
    next n hn =>
      have hn0 : 0 < n := firstIndex?_pos (Bool.eq_false_iff.2 hopen) hn
      simp only [Reader.rest_advance, List.length_drop]
      omega
    next => simpa [Reader.toEnd, Reader.rest_advance] using hpos

/-- What a run comes to: its log, oldest entry first, and the tokens unless a tag has a defect. -/
structure Outcome where
  records : List Record
  result : Except Failure (List Token)

/-- Run to the end of the template or to the first tag that has a defect. -/
def run (s : Lexer) : Outcome :=
  if _ : s.reader.atEnd then
    ⟨(.complete s.tokens.length :: s.records).reverse, .ok s.tokens.reverse⟩
  else
    match _ : s.step with
    | .ok next => run next
    | .error failure => ⟨s.records.reverse, .error failure⟩
termination_by s.reader.rest.length
decreasing_by
  exact length_rest_lt_of_step (by simpa using ‹¬ s.reader.atEnd = true›) ‹s.step = .ok next›

theorem run_of_atEnd {s : Lexer} (h : s.reader.atEnd = true) :
    s.run = ⟨(.complete s.tokens.length :: s.records).reverse, .ok s.tokens.reverse⟩ := by
  rw [run, dif_pos h]

theorem run_of_step_eq_ok {s next : Lexer} (h : s.reader.atEnd = false)
    (hstep : s.step = .ok next) : s.run = next.run := by
  rw [run, dif_neg (by simp [h])]
  split
  next hok => rw [hstep, Except.ok.injEq] at hok; rw [hok]
  next herr => rw [hstep] at herr; cases herr

theorem run_of_step_eq_error {s : Lexer} {failure : Failure} (h : s.reader.atEnd = false)
    (hstep : s.step = .error failure) : s.run = ⟨s.records.reverse, .error failure⟩ := by
  rw [run, dif_neg (by simp [h])]
  split
  next hok => rw [hstep] at hok; cases hok
  next herr => rw [hstep, Except.error.injEq] at herr; rw [herr]

end Lexer

/-- Run over a whole template under a pair of delimiters. -/
def Lexer.runOn (d : Delimiters) (source : Text) : Lexer.Outcome :=
  (Lexer.start d (.ofText source)).run

/-- The tokens of a template under a pair of delimiters. -/
def tokenize (d : Delimiters) (source : Text) : Except Failure (List Token) :=
  (Lexer.runOn d source).result

end Mustache
