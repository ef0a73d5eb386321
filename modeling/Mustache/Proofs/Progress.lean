import Mustache.Proofs.Abreast
import Mustache.Proofs.CheckedCursor
import Mustache.Proofs.DirectiveParts

/-! Progress. The lexer is written once more over a cursor, with every check that it makes on the
way and a bound on its rounds. From any place between two characters and under any pair, also one
that could not bound tags, no check fails: the checked run comes to what the run comes to. -/
namespace Mustache

/-- A result that depends on the template only. -/
def Checked.of {α : Type} (x : Except Failure α) : Checked α := x.mapError .failure

lemma Checked.of_eq_ok_iff {α : Type} {x : Except Failure α} {a : α} :
    (Checked.of x = .ok a) ↔ x = .ok a := by
  cases x <;> simp [Checked.of, Except.mapError]

namespace Cursor

/-- Give up on a tag at a place. -/
def fail {α : Type} (c : Cursor) (defect : Defect) : Checked α :=
  .error (.failure ⟨c.position, defect⟩)

/-- Read the content of a directive with a cursor of its own. -/
def directive? (content : Text) : Checked (Option Delimiters) := do
  let (_, inside) ← (ofText content).skipBlanks
  match ← inside.takeUntilChar isBlank with
  | (none, _) => return none
  | (some opening, behind) =>
    let (_, word) ← behind.skipBlanks
    match ← word.takeThrough ['='] with
    | (none, _) => return none
    | (some closing, _) => return Delimiters.ofPair? opening (closing.filter (!isBlank ·))

/-- What a tag stands for, and the place behind it: a tag that begins with an additional brace has
to end with one more, and a directive has to set a pair. -/
def token (c : Cursor) (tag : Tag) (indent : Option Text) : Checked (Token × Cursor) :=
  if tag.sigil == '\x7b' then do
    match ← c.accept ['\x7d'] with
    | (true, braced) => return (.unescaped (Text.trim tag.content), braced)
    | (false, stop) => stop.fail .missingBrace
  else if tag.sigil == '=' then do
    match ← directive? tag.content with
    | some pair => return (.setDelimiters pair, c)
    | none => c.fail .badDirective
  else
    match tag.token? indent with
    | some token => return (token, c)
    | none => c.fail .badDirective

end Cursor

/-- The state of a checked run. -/
structure Scan where
  cursor : Cursor
  delimiters : Delimiters
  /-- The tokens so far, newest first. -/
  tokens : List Token
  deriving DecidableEq, Repr

namespace Scan

/-- A run from behind the first part of a source. -/
def behind (d : Delimiters) (a b : Text) : Scan := ⟨.behind a b, d, []⟩

/-- Cut the indentation off a last token that is text, and drop the token if that is all of it. -/
def dropIndent : List Token → Checked (List Token)
  | .text content :: earlier => do
    let kept ← Text.cut 0 (Text.byteSize (Text.dropEndWhile isIndent content)) content
    return if kept.isEmpty then earlier else .text kept :: earlier
  | tokens => return tokens

/-- Read the text up to the next tag. -/
def readText (s : Scan) : Checked Scan := do
  let (content, c) ← s.cursor.takeUntilOrEnd s.delimiters.opening
  return { s with cursor := c, tokens := .text content :: s.tokens }

/-- Add the token of a tag that ends at `after`, where `tail` is the part of the line that goes
away with it, if there is one. -/
def addTag (s : Scan) (token : Token) (tail : Option Text) (after : Cursor) : Checked Scan :=
  match tail with
  | some tail => do
    let c ← after.skip tail
    return ⟨c, token.delimitersAfter s.delimiters, token :: (← dropIndent s.tokens)⟩
  | none => return ⟨after, token.delimitersAfter s.delimiters, token :: s.tokens⟩

/-- Finish a tag whose closing sequence is found. The rest of its line is cut out before it is
known what the tag stands for. -/
def closeTag (s : Scan) (tag : Tag) (indent : Option Text) (found : Cursor) : Checked Scan := do
  let (_, closed) ← found.accept s.delimiters.closing
  let tail ← closed.lineTail?
  let (token, after) ← closed.token tag indent
  s.addTag token (if token.canStandAlone && indent.isSome then tail else none) after

/-- Read the tag whose opening sequence has to come next. -/
def readTag (s : Scan) : Checked Scan := do
  let indent ← s.cursor.lineIndent?
  let (opened, c) ← s.cursor.accept s.delimiters.opening
  Check.opening.require opened
  let (_, inside) ← c.skipBlanks
  match ← inside.next? with
  | none => inside.fail .empty
  | some (sigil, body) =>
    match ← body.takeUntil s.delimiters.closing with
    | (none, stop) => stop.fail .unclosed
    | (some content, found) => s.closeTag ⟨sigil, content⟩ indent found

/-- Read one tag or one stretch of text. -/
def step (s : Scan) : Checked Scan := do
  if ← s.cursor.startsWith s.delimiters.opening then s.readTag else s.readText

/-- Run to the end of the template, in no more rounds than are given. -/
def run : Nat → Scan → Checked (List Token)
  | 0, s => if s.cursor.atEnd then .ok s.tokens.reverse else .error (.check .rounds)
  | rounds + 1, s =>
    if s.cursor.atEnd then .ok s.tokens.reverse
    else do
      let next ← s.step
      run rounds next

end Scan

section Tags

open Reader

variable {source : Text} {r : Reader} {tag : Tag} {indent : Option Text}

lemma Reader.At.skipBlanks (hr : r.At source) : r.skipBlanks.2.At source := hr.advance _

lemma Reader.At.next? (hr : r.At source) {c : Char} {r' : Reader} (h : r.next? = some (c, r')) :
    r'.At source := by
  unfold Reader.next? at h
  split at h
  · cases h
  · obtain ⟨-, rfl⟩ := Prod.mk.inj (Option.some.inj h)
    exact hr.advance 1

/-- A directive is read without trouble, whatever its content is. -/
lemma directive?_eq (content : Text) :
    Cursor.directive? content = .ok (Delimiters.ofDirective? content) := by
  have hstart : (ofText content).cursor = Cursor.ofText content := rfl
  have hinside := (at_ofText content).skipBlanks
  rw [← Delimiters.readDirective?_eq_ofDirective?, Cursor.directive?, Delimiters.readDirective?,
    ← hstart, skipBlanks_cursor (at_ofText content), Checked.ok_bind]
  simp only [takeUntilChar_cursor hinside, Checked.ok_bind]
  have hbehind := ((ofText content).skipBlanks.2.passes_takeUntilChar isBlank).at hinside
  generalize (ofText content).skipBlanks.2.takeUntilChar isBlank = word at hbehind ⊢
  obtain ⟨_ | opening, behind⟩ := word
  · rfl
  · simp only [skipBlanks_cursor hbehind, Checked.ok_bind, takeThrough_cursor hbehind.skipBlanks]
    generalize behind.skipBlanks.2.takeThrough ['='] = closing
    obtain ⟨_ | closing, _⟩ := closing <;> rfl

lemma token_cursor_of_brace (hr : r.At source) (hsigil : tag.sigil = '\x7b') :
    r.cursor.token tag indent =
      if r.startsWith ['\x7d'] then .ok (.unescaped (Text.trim tag.content), (r.advance 1).cursor)
      else .error (.failure ⟨r.position, .missingBrace⟩) := by
  rw [Cursor.token, hsigil, accept_cursor hr, accept]
  by_cases h : r.startsWith ['\x7d'] = true <;> simp [h] <;> rfl

lemma token_cursor_of_ne (hsigil : tag.sigil ≠ '\x7b') :
    r.cursor.token tag indent =
      match tag.token? indent with
      | some token => .ok (token, r.cursor)
      | none => .error (.failure ⟨r.position, .badDirective⟩) := by
  rw [Cursor.token, if_neg (by simpa using hsigil)]
  by_cases hsign : tag.sigil = '='
  · have htoken : tag.token? indent = (Delimiters.ofDirective? tag.content).map .setDelimiters := by
      simp [Tag.token?, hsign]
    rw [if_pos (by simpa using hsign), directive?_eq, Checked.ok_bind, htoken]
    cases Delimiters.ofDirective? tag.content <;> rfl
  · rw [if_neg (by simpa using hsign)]
    rfl

end Tags

namespace Lexer

variable {source : Text} {s : Lexer}

/-- The state of a run, with its place as an offset. -/
def scan (s : Lexer) : Scan := ⟨s.reader.cursor, s.delimiters, s.tokens⟩

lemma dropIndent_checked (tokens : List Token) :
    Scan.dropIndent tokens = .ok (dropIndent tokens) := by
  unfold dropIndent
  split
  next content earlier =>
    obtain ⟨w, hcontent, -⟩ := Text.exists_dropEndWhile_append isIndent content
    have hcut : Text.cut 0 (Text.byteSize (Text.dropEndWhile isIndent content)) content =
        .ok (Text.dropEndWhile isIndent content) := by
      conv_lhs => arg 3; rw [hcontent]
      exact Text.cut_front _ _
    rw [Scan.dropIndent, hcut]
    rfl
  next hno =>
    unfold Scan.dropIndent
    split
    next content earlier => exact absurd rfl (hno content earlier)
    next => rfl

lemma readText_checked (hs : s.reader.At source) : s.scan.readText = .ok s.readText.scan := by
  rw [Scan.readText, scan, Reader.takeUntilOrEnd_cursor hs]
  rfl

/-- The rest of a line that was reported still comes next when it is skipped. -/
lemma addTag_checked {after : Reader} (hafter : after.At source) (token : Token) :
    s.scan.addTag token (lineTail? token s.reader after) after.cursor =
      .ok (s.addTag token after).scan := by
  cases htail : lineTail? token s.reader after with
  | none => simp only [Scan.addTag, addTag, htail]; rfl
  | some tail =>
    have hnext := (Reader.passes_skip_lineTail? (lineTail?_of_eq_some htail)).1
    simp only [Scan.addTag, addTag, htail, scan, Reader.skip_cursor hafter hnext, Checked.ok_bind,
      dropIndent_checked]
    rfl

/-- A tag that ends with one more brace is no tag that takes its line away, so it does not matter
that the rest of the line was looked for in front of the brace. -/
lemma closeTag_checked_of_brace {tag : Tag} {found : Reader} (hfound : found.At source)
    (hclose : found.startsWith s.delimiters.closing = true) (hsigil : tag.sigil = '\x7b') :
    s.scan.closeTag tag s.reader.lineIndent? found.cursor =
      if (found.skip s.delimiters.closing).startsWith ['\x7d'] then
        .ok (s.addTag (.unescaped (Text.trim tag.content))
          ((found.skip s.delimiters.closing).advance 1)).scan
      else .error (.failure ⟨(found.skip s.delimiters.closing).position, .missingBrace⟩) := by
  have hclosed : (found.skip s.delimiters.closing).At source := hfound.advance _
  simp only [Scan.closeTag, scan, Reader.accept_cursor_of_startsWith hfound hclose, Checked.ok_bind,
    Reader.lineTail?_cursor, token_cursor_of_brace hclosed hsigil]
  by_cases hbrace : (found.skip s.delimiters.closing).startsWith ['\x7d'] = true
  · rw [if_pos hbrace, if_pos hbrace]
    exact addTag_checked (hclosed.advance 1) (.unescaped (Text.trim tag.content))
  · rw [if_neg hbrace, if_neg hbrace]
    rfl

lemma closeTag_checked_of_ne {tag : Tag} {found : Reader} (hfound : found.At source)
    (hclose : found.startsWith s.delimiters.closing = true) (hsigil : tag.sigil ≠ '\x7b') :
    s.scan.closeTag tag s.reader.lineIndent? found.cursor =
      match tag.token? s.reader.lineIndent? with
      | some token => .ok (s.addTag token (found.skip s.delimiters.closing)).scan
      | none => .error (.failure ⟨(found.skip s.delimiters.closing).position, .badDirective⟩) := by
  have hclosed : (found.skip s.delimiters.closing).At source := hfound.advance _
  simp only [Scan.closeTag, scan, Reader.accept_cursor_of_startsWith hfound hclose, Checked.ok_bind,
    Reader.lineTail?_cursor, token_cursor_of_ne hsigil]
  cases tag.token? s.reader.lineIndent? with
  | none => rfl
  | some token => exact addTag_checked hclosed token

/-- Where an opening sequence comes next, reading the tag passes every check. -/
lemma readTag_checked (hs : s.reader.At source)
    (hopen : s.reader.startsWith s.delimiters.opening = true) :
    s.scan.readTag = .of (scan <$> s.readTag) := by
  have hskip := Reader.accept_cursor_of_startsWith hs hopen
  have hbehind : (s.reader.skip s.delimiters.opening).At source := hs.advance _
  have hinside := hbehind.skipBlanks
  simp only [Scan.readTag, scan, Reader.lineIndent?_cursor, Checked.ok_bind, hskip, Check.require,
    if_true, Reader.skipBlanks_cursor hbehind, Reader.next?_cursor hinside]
  unfold readTag Tag.read
  simp only
  generalize (s.reader.skip s.delimiters.opening).skipBlanks.2 = inside at hinside ⊢
  cases hnext : inside.next? with
  | none => rfl
  | some next =>
    obtain ⟨sigil, body⟩ := next
    have hbody := hinside.next? hnext
    simp only [Option.map_some, Reader.takeUntil_cursor hbody, Checked.ok_bind]
    cases htake : body.takeUntil s.delimiters.closing with
    | mk taken found =>
      have hfound : found.At source := by
        have h := (body.passes_takeUntil s.delimiters.closing).at hbody
        rwa [htake] at h
      cases taken with
      | none => rfl
      | some content =>
        have hclose := Reader.startsWith_of_takeUntil htake
        by_cases hsigil : sigil = '\x7b'
        · refine (closeTag_checked_of_brace hfound hclose hsigil).trans ?_
          simp only [hsigil, Reader.accept, Tag.token?]
          by_cases hbrace : (found.skip s.delimiters.closing).startsWith ['\x7d'] = true <;>
            simp [hbrace] <;> rfl
        · refine (closeTag_checked_of_ne hfound hclose hsigil).trans ?_
          simp only [beq_eq_false_iff_ne.2 hsigil, Bool.false_eq_true, if_false, bind, Except.bind]
          cases (⟨sigil, content⟩ : Tag).token? s.reader.lineIndent? <;> rfl

lemma step_checked (hs : s.reader.At source) : s.scan.step = .of (scan <$> s.step) := by
  rw [Scan.step, step, scan, Reader.startsWith_cursor, Checked.ok_bind]
  by_cases hopen : s.reader.startsWith s.delimiters.opening = true
  · rw [if_pos hopen, if_pos hopen]
    exact readTag_checked hs hopen
  · rw [if_neg hopen, if_neg hopen]
    exact readText_checked hs

/-- A run with a round for each character that is left ends within its rounds and passes every
check. -/
lemma run_checked (hs : s.reader.At source) {rounds : Nat}
    (hrounds : s.reader.rest.length ≤ rounds) : Scan.run rounds s.scan = .of s.run.result := by
  have hend : s.scan.cursor.atEnd = s.reader.atEnd := s.reader.atEnd_cursor
  -- Each step leaves less to read, so the rounds that are left stay enough.
  induction rounds generalizing s with
  | zero =>
    have hdone : s.reader.atEnd = true := by simpa [Reader.atEnd] using hrounds
    rw [Scan.run, hend, if_pos hdone, run_of_atEnd hdone]
    rfl
  | succ rounds ih =>
    by_cases hdone : s.reader.atEnd = true
    · rw [Scan.run, hend, if_pos hdone, run_of_atEnd hdone]
      rfl
    · rw [Bool.not_eq_true] at hdone
      rw [Scan.run, hend, if_neg (by simp [hdone]), step_checked hs]
      cases hstep : s.step with
      | error failure =>
        rw [run_of_step_eq_error hdone hstep]
        rfl
      | ok next =>
        have hlt := length_rest_lt_of_step hdone hstep
        have hnext : next.reader.At source := Reaches.at_source (.single ⟨hdone, hstep⟩) hs
        rw [run_of_step_eq_ok hdone hstep]
        exact ih hnext (by omega) next.reader.atEnd_cursor

example : Scan.readTag (.behind .braces [] "x".toList) = .error (.check .opening) := by decide

example : Scan.run 1 (.behind .braces [] "x\x7b\x7b!\x7d\x7d".toList) =
    .error (.check .rounds) := by decide +kernel

lemma length_dropIndent_le (tokens : List Token) : (dropIndent tokens).length ≤ tokens.length := by
  unfold dropIndent
  split
  · dsimp only
    split <;> simp
  · exact Nat.le_refl _

/-- A step adds at most one token. -/
lemma length_tokens_le_of_step {next : Lexer} (h : s.step = .ok next) :
    next.tokens.length ≤ s.tokens.length + 1 := by
  rcases eq_of_step_eq_ok h with ⟨-, rfl⟩ | ⟨sp, after, -, -, rfl⟩
  · exact Nat.le_refl _
  · have hdrop := length_dropIndent_le s.tokens
    simp only [addTag, List.length_cons]
    split <;> omega

/-- A run comes to no more tokens than there are characters left. -/
lemma length_tokens_le_of_run {tokens : List Token} (h : s.run.result = .ok tokens) :
    tokens.length ≤ s.tokens.length + s.reader.rest.length := by
  fun_induction run s with
  | case1 s hend =>
    obtain rfl := Except.ok.inj h
    simp
  | case2 s hend next hstep ih =>
    have hadd := length_tokens_le_of_step hstep
    have hlt := length_rest_lt_of_step (by simpa using hend) hstep
    have hle := ih h
    omega
  | case3 s hend failure hstep => cases h

/-- A step that does not fail moves forward. -/
lemma Goes.offset_lt {next : Lexer} (h : s.Goes next) : s.reader.offset < next.reader.offset := by
  have hlt := length_rest_lt_of_step h.1 h.2
  obtain ⟨n, hn⟩ := h.exists_advance
  have hpasses := s.reader.passes_take n
  rw [hn] at hlt ⊢
  rw [hpasses.offset]
  cases htake : s.reader.rest.take n with
  | nil =>
    -- Nothing would have been passed, but there is less to read.
    have hrest := congrArg List.length hpasses.rest
    rw [htake, List.nil_append] at hrest
    omega
  | cons c t =>
    have hpos := c.utf8Size_pos
    rw [Text.byteSize_cons]
    omega

end Lexer

lemma Reader.cursor_behind (a b : Text) : (Reader.behind a b).cursor = .behind a b := by
  rw [(at_behind a b).cursor_eq, consumed_behind, rest_behind, List.reverse_reverse]

/-- Lexing makes progress and trips no check. From any place between two characters of a source and
under any pair of delimiters, each step fails or moves forward, so as many rounds as there are
characters left are enough; with these rounds the checked run comes to what the run comes to, and
there are at most that many tokens. -/
theorem run_progresses_without_refusal (d : Delimiters) (a b : Text) :
    (∀ s, (Lexer.start d (.behind a b)).Reaches s → s.reader.atEnd = false →
      s.scan.step = .of (Lexer.scan <$> s.step) ∧
      ((∃ failure, s.step = .error failure) ∨
        ∃ next, s.step = .ok next ∧ s.reader.offset < next.reader.offset)) ∧
    Scan.run b.length (.behind d a b) = .of (tokenizeBehind d a b) ∧
    (∀ check, Scan.run b.length (.behind d a b) ≠ .error (.check check)) ∧
    ∀ tokens, tokenizeBehind d a b = .ok tokens → tokens.length ≤ b.length := by
  have hplace := Reader.at_behind a b
  have hrest := Reader.rest_behind a b
  have hrun : Scan.run b.length (.behind d a b) = .of (tokenizeBehind d a b) := by
    have hscan : Scan.behind d a b = (Lexer.start d (.behind a b)).scan := by
      rw [Scan.behind, ← Reader.cursor_behind]
      rfl
    rw [hscan]
    exact Lexer.run_checked hplace (Nat.le_of_eq (congrArg List.length hrest))
  refine ⟨fun s hreach hend => ⟨Lexer.step_checked (hreach.at_source hplace), ?_⟩, hrun, ?_, ?_⟩
  · cases hstep : s.step with
    | error failure => exact .inl ⟨failure, rfl⟩
    | ok next => exact .inr ⟨next, rfl, Lexer.Goes.offset_lt ⟨hend, hstep⟩⟩
  · intro check hcheck
    rw [hrun] at hcheck
    cases htokens : tokenizeBehind d a b <;> rw [htokens] at hcheck <;> cases hcheck
  · intro tokens htokens
    have hle := Lexer.length_tokens_le_of_run htokens
    rw [show (Lexer.start d (.behind a b)).reader.rest = b from hrest] at hle
    simpa [Lexer.start] using hle

/-- Under a pair whose opening sequence is empty, every place opens a tag, and the run still moves
on to the end. -/
theorem run_progresses_without_opening :
    tokenizeBehind ⟨[], [' ']⟩ "é\n".toList "x yé ".toList =
        .ok [.escaped ['x'], .escaped "yé".toList] ∧
      ∃ next, (Lexer.start ⟨[], [' ']⟩ (.behind "é\n".toList "x yé ".toList)).step = .ok next ∧
        3 < next.reader.offset := by
  obtain ⟨hstep, hrun, -, -⟩ :=
    run_progresses_without_refusal ⟨[], [' ']⟩ "é\n".toList "x yé ".toList
  have htokens : Scan.run 5 (.behind ⟨[], [' ']⟩ "é\n".toList "x yé ".toList) =
      .ok [.escaped ['x'], .escaped "yé".toList] := by decide +kernel
  refine ⟨Checked.of_eq_ok_iff.1 (hrun.symm.trans htokens), ?_⟩
  rcases (hstep _ .refl (by decide)).2 with ⟨failure, hfail⟩ | hnext
  · have hok : (Lexer.start ⟨[], [' ']⟩
        (.behind "é\n".toList "x yé ".toList)).step.isOk = true := by decide +kernel
    rw [hfail] at hok
    cases hok
  · exact hnext

end Mustache
