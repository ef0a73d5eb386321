import Mustache.Proofs.CheckedCursor

/-! Sessions of a cursor. The commands of a session are carried out on byte offsets, each of them
with the checks that it makes on the way. None of the checks fails as long as only texts that come
next are skipped, and whatever the commands were, the place is that of the text before it. -/
namespace Mustache.Cursor

open Reader (Command Answer)

/-- What is reported of a part of the source, if it can be cut out. -/
def answerOf : Checked Text → Answer
  | .ok t => .text t
  | .error _ => .refused

/-- A cursor together with a saved place. -/
structure Session where
  cursor : Cursor
  saved : Cursor
  deriving DecidableEq, Repr

/-- The place lies between two characters of the source, and its line and column are counted over
the text before it. -/
def At (source : Text) (c : Cursor) : Prop := ∃ a b, source = a ++ b ∧ c = .behind a b

/-- A text may be skipped only where it comes next; all else may be asked for anywhere. -/
def Allows (c : Cursor) : Command → Prop
  | .skip t => ∃ a b, c = .behind a (t ++ b)
  | _ => True

namespace Session

/-- A session starts at the beginning of the source, and that is the place saved first. -/
def ofText (source : Text) : Session := ⟨.ofText source, .ofText source⟩

/-- Move the cursor and keep the saved place. -/
def moveTo (s : Session) (c : Cursor) : Session := { s with cursor := c }

/-- Carry out one command. -/
def step (s : Session) : Command → Checked (Answer × Session)
  | .source => return (.text s.cursor.source, s)
  | .rest => return (.text (← s.cursor.rest), s)
  | .slice start stop => return (answerOf (s.cursor.slice start stop), s)
  | .sliceFrom start => return (answerOf (s.cursor.sliceFrom start), s)
  | .peek n => return (.text (← s.cursor.peek n), s)
  | .startsWith p => return (.flag (← s.cursor.startsWith p), s)
  | .next => do
    match ← s.cursor.next? with
    | some (a, c) => return (.text [a], s.moveTo c)
    | none => return (.nothing, s)
  | .take n => do
    let (t, c) ← s.cursor.take n
    return (.text t, s.moveTo c)
  | .takeUntil p => do
    let (t, c) ← s.cursor.takeUntil p
    return (.ofText? t, s.moveTo c)
  | .takeUntilOrEnd p => do
    let (t, c) ← s.cursor.takeUntilOrEnd p
    return (.text t, s.moveTo c)
  | .takeThrough p => do
    let (t, c) ← s.cursor.takeThrough p
    return (.ofText? t, s.moveTo c)
  | .takeUntilChar q => do
    let (t, c) ← s.cursor.takeUntilChar q
    return (.ofText? t, s.moveTo c)
  | .accept p => do
    let (b, c) ← s.cursor.accept p
    return (.flag b, s.moveTo c)
  | .skipWhile q limit => do
    let (n, c) ← s.cursor.skipWhile q limit
    return (.count n, s.moveTo c)
  | .skipBlanks => do
    let (n, c) ← s.cursor.skipBlanks
    return (.count n, s.moveTo c)
  | .lineIndent => return (.ofText? (← s.cursor.lineIndent?), s)
  | .lineTail => return (.ofText? (← s.cursor.lineTail?), s)
  | .skip t => return (.nothing, s.moveTo (← s.cursor.skip t))
  | .skipLineTail => do
    match ← s.cursor.lineTail? with
    | some t => return (.text t, s.moveTo (← s.cursor.skip t))
    | none => return (.nothing, s)
  | .save => return (.nothing, { s with saved := s.cursor })
  | .restore => return (.nothing, { s with cursor := s.saved })

/-- The session after some commands. -/
def run (s : Session) : List Command → Checked Session
  | [] => return s
  | c :: later => do
    let (_, next) ← s.step c
    next.run later

/-- Each of the commands is allowed when its turn comes. -/
def Allows (s : Session) : List Command → Prop
  | [] => True
  | c :: later =>
    s.cursor.Allows c ∧ ∀ answer next, s.step c = .ok (answer, next) → next.Allows later

/-- What one command comes to at a place between two parts of a source: `answer` is reported and
the session goes on as `next`. Unless it returns to the saved place, the cursor moves over exactly
the text that the answer tells. -/
structure Carries (s : Session) (c : Command) (answer : Answer) (next : Session)
    (before rest : Text) : Prop where
  place : s.cursor = .behind before rest
  answers : c.Answers before rest answer
  reports : c.reports = true → next = s
  moves : c ≠ .restore → ∃ later, rest = c.passed rest answer ++ later ∧
    next.cursor = .behind (before ++ c.passed rest answer) later
  saved : c ≠ .save → next.saved = s.saved
  save : c = .save → next.saved = s.cursor
  restore : c = .restore → next.cursor = s.saved

end Session

/-- A place of a source is known by its offset. -/
lemma behind_eq_of_offset_eq {a b a' b' : Text} (hsource : a ++ b = a' ++ b')
    (hoffset : (behind a b).offset = (behind a' b').offset) : a = a' ∧ b = b' := by
  have hsplit := Text.splitBytes?_append a b
  have hsplit' := Text.splitBytes?_append a' b'
  rw [← hsource, show Text.byteSize a' = Text.byteSize a from hoffset.symm, hsplit,
    Option.some.injEq, Prod.mk.injEq] at hsplit'
  exact hsplit'

lemma behind_inj {a b a' b' : Text} (h : behind a b = behind a' b') : a = a' ∧ b = b' :=
  behind_eq_of_offset_eq (congrArg source h) (congrArg offset h)

lemma At.eq_of_offset_eq {source : Text} {c c' : Cursor} (hc : c.At source) (hc' : c'.At source)
    (h : c.offset = c'.offset) : c = c' := by
  obtain ⟨a, b, hsource, rfl⟩ := hc
  obtain ⟨a', b', hsource', rfl⟩ := hc'
  obtain ⟨rfl, rfl⟩ := behind_eq_of_offset_eq (hsource.symm.trans hsource') h
  rfl

end Mustache.Cursor

namespace Mustache.Reader

variable {source : Text} {s : Session} {c : Command}

/-- The places of a session as offsets. -/
def Session.cursors (s : Session) : Cursor.Session := ⟨s.reader.cursor, s.saved.cursor⟩

lemma answerOf_cut (start stop : Nat) (t : Text) :
    Cursor.answerOf (Text.cut start stop t) = .ofSlice? (Text.slice? start stop t) := by
  unfold Text.cut
  cases Text.slice? start stop t <;> rfl

lemma allows_cursor_iff {r : Reader} (hr : r.At source) : r.cursor.Allows c ↔ c.Allowed r := by
  cases c with
  | skip t =>
    constructor
    · rintro ⟨a, b, h⟩
      rw [hr.cursor_eq] at h
      exact ⟨b, (Cursor.behind_inj h).2.symm⟩
    · rintro ⟨b, hb⟩
      exact ⟨r.consumed.reverse, b, by rw [hb, hr.cursor_eq]⟩
  | _ => exact Iff.rfl

namespace Session

/-- A command that is allowed passes every check, and does to the cursors what it does to the
readers. -/
lemma At.step_cursors (hs : s.At source) (hc : c.Allowed s.reader) :
    s.cursors.step c = .ok ((s.step c).1, (s.step c).2.cursors) := by
  have hr := hs.1
  cases c with
  | source | save | restore => rfl
  | rest =>
    simp only [Cursor.Session.step, cursors, rest_cursor]
    rfl
  | slice start stop =>
    simp only [Cursor.Session.step, cursors, Cursor.slice, answerOf_cut]
    rfl
  | sliceFrom start =>
    simp only [Cursor.Session.step, cursors, Cursor.sliceFrom, Cursor.slice, answerOf_cut]
    rfl
  | peek n =>
    simp only [Cursor.Session.step, cursors, peek_cursor]
    rfl
  | startsWith p =>
    simp only [Cursor.Session.step, cursors, startsWith_cursor]
    rfl
  | next =>
    simp only [Cursor.Session.step, cursors, next?_cursor hr, Checked.ok_bind, Session.step]
    cases s.reader.next? <;> rfl
  | take n =>
    simp only [Cursor.Session.step, cursors, take_cursor hr]
    rfl
  | takeUntil p =>
    simp only [Cursor.Session.step, cursors, takeUntil_cursor hr]
    rfl
  | takeUntilOrEnd p =>
    simp only [Cursor.Session.step, cursors, takeUntilOrEnd_cursor hr]
    rfl
  | takeThrough p =>
    simp only [Cursor.Session.step, cursors, takeThrough_cursor hr]
    rfl
  | takeUntilChar q =>
    simp only [Cursor.Session.step, cursors, takeUntilChar_cursor hr]
    rfl
  | accept p =>
    simp only [Cursor.Session.step, cursors, accept_cursor hr]
    rfl
  | skipWhile q limit =>
    simp only [Cursor.Session.step, cursors, skipWhile_cursor hr]
    rfl
  | skipBlanks =>
    simp only [Cursor.Session.step, cursors, skipBlanks_cursor hr]
    rfl
  | lineIndent =>
    simp only [Cursor.Session.step, cursors, lineIndent?_cursor]
    rfl
  | lineTail =>
    simp only [Cursor.Session.step, cursors, lineTail?_cursor]
    rfl
  | skip t =>
    simp only [Cursor.Session.step, cursors, skip_cursor hr hc]
    rfl
  | skipLineTail =>
    simp only [Cursor.Session.step, cursors, lineTail?_cursor, Checked.ok_bind, Session.step]
    cases htail : s.reader.lineTail? with
    | none => rfl
    | some t =>
      simp only [skip_cursor hr (passes_skip_lineTail? htail).1]
      rfl

/-- Commands that are carried out were allowed: what does not come next is not skipped. -/
lemma allowed_of_step_eq_ok {x : Answer × Cursor.Session}
    (h : s.cursors.step c = .ok x) : c.Allowed s.reader := by
  cases c with
  | skip t =>
    rw [Command.Allowed, ← List.isPrefixOf_iff_prefix]
    by_contra hno
    have hstart : s.reader.startsWith t = false := Bool.eq_false_iff.2 hno
    simp only [Cursor.Session.step, cursors, Cursor.skip, startsWith_cursor, Checked.ok_bind,
      hstart] at h
    cases h
  | _ => trivial

lemma At.carries_cursors (hs : s.At source) (hc : c.Allowed s.reader) :
    s.cursors.Carries c (s.step c).1 (s.step c).2.cursors s.reader.consumed.reverse
      s.reader.rest where
  place := hs.1.cursor_eq
  answers := s.answers_step c
  reports h := congrArg cursors (s.step_of_reports h)
  moves h := by
    have hpasses := s.passes_step h hc
    have hnext := (hs.step c).1.cursor_eq
    rw [hpasses.consumed, List.reverse_append, List.reverse_reverse] at hnext
    exact ⟨_, hpasses.rest, hnext⟩
  saved h := congrArg Reader.cursor (s.saved_step h)
  save := by
    rintro rfl
    rfl
  restore := by
    rintro rfl
    rfl

/-! Runs. -/

variable {commands : List Command}

lemma At.cursors (hs : s.At source) : s.cursors.cursor.At source :=
  ⟨_, _, (at_iff.1 hs.1).1.symm, hs.1.cursor_eq⟩

/-- Commands that are allowed pass every check. -/
lemma At.run_cursors (hs : s.At source) (hc : s.cursors.Allows commands) :
    s.cursors.run commands = .ok (s.after commands).cursors := by
  induction commands generalizing s with
  | nil => rfl
  | cons c later ih =>
    have hstep := hs.step_cursors ((allows_cursor_iff hs.1).1 hc.1)
    rw [Cursor.Session.run, hstep, Checked.ok_bind]
    exact ih (hs.step c) (hc.2 _ _ hstep)

lemma At.run_cursors_of_eq_ok (hs : s.At source) {t : Cursor.Session}
    (h : s.cursors.run commands = .ok t) : t = (s.after commands).cursors := by
  induction commands generalizing s with
  | nil => exact (Except.ok.inj h).symm
  | cons c later ih =>
    cases hstep : s.cursors.step c with
    | error halt =>
      rw [Cursor.Session.run, hstep] at h
      cases h
    | ok x =>
      rw [Cursor.Session.run, hs.step_cursors (allowed_of_step_eq_ok hstep),
        Checked.ok_bind] at h
      exact ih (hs.step c) h

lemma At.allows_concat (hs : s.At source) (h : s.cursors.Allows (commands ++ [c])) :
    s.cursors.Allows commands ∧ c.Allowed (s.after commands).reader := by
  induction commands generalizing s with
  | nil => exact ⟨trivial, (allows_cursor_iff hs.1).1 h.1⟩
  | cons b later ih =>
    obtain ⟨hb, hlater⟩ := h
    have hstep := hs.step_cursors ((allows_cursor_iff hs.1).1 hb)
    refine ⟨⟨hb, fun answer next hnext => ?_⟩, (ih (hs.step b) (hlater _ _ hstep)).2⟩
    obtain ⟨rfl, rfl⟩ := Prod.mk.inj (Except.ok.inj (hstep.symm.trans hnext))
    exact (ih (hs.step b) (hlater _ _ hstep)).1

end Session
end Mustache.Reader

namespace Mustache.Cursor.Session

open Reader (Command)

/-- Sessions keep their place. As long as only texts that come next are skipped, no check fails;
after every command the cursor lies between two characters of the source, with the line and column
of the text before it, and has moved over exactly the text that the answer tells; and any other
session that is at the same offset has the same cursor. -/
theorem session_keeps_place (source : Text) (earlier : List Command) (c : Command)
    (h : (ofText source).Allows (earlier ++ [c])) :
    ∃ s before rest answer next,
      (ofText source).run earlier = .ok s ∧ source = before ++ rest ∧
      s.step c = .ok (answer, next) ∧ s.Carries c answer next before rest ∧
      next.cursor.At source ∧
      ∀ others t, (ofText source).run others = .ok t →
        t.cursor.offset = next.cursor.offset → t.cursor = next.cursor := by
  have hstart : (Reader.Session.ofText source).At source :=
    ⟨Reader.at_ofText source, Reader.at_ofText source⟩
  obtain ⟨hearlier, hc⟩ := hstart.allows_concat h
  have hs := hstart.after earlier
  have hnext := hs.step c
  refine ⟨_, _, _, _, _, hstart.run_cursors hearlier, (Reader.at_iff.1 hs.1).1.symm,
    hs.step_cursors hc, hs.carries_cursors hc, hnext.cursors, ?_⟩
  intro others t ht hoffset
  obtain rfl := hstart.run_cursors_of_eq_ok ht
  exact (hstart.after others).cursors.eq_of_offset_eq hnext.cursors hoffset

/-- Behind a character of two bytes and a line feed, every session is at the first column of the
second line. -/
theorem session_keeps_place_lineFeed :
    ∃ s next, (ofText "é\nab".toList).run [.next] = .ok s ∧
      s.step (.skip ['\n']) = .ok (.nothing, next) ∧
      next.cursor.offset = 3 ∧ next.cursor.position = ⟨2, 1⟩ ∧
      ∀ others t, (ofText "é\nab".toList).run others = .ok t → t.cursor.offset = 3 →
        t.cursor = next.cursor := by
  have hfirst : (ofText "é\nab".toList).step .next =
      .ok (.text ['é'], ⟨.behind ['é'] "\nab".toList, .ofText "é\nab".toList⟩) := by decide
  have hallows : (ofText "é\nab".toList).Allows ([.next] ++ [.skip ['\n']]) := by
    refine ⟨trivial, fun answer next hnext => ?_⟩
    obtain ⟨rfl, rfl⟩ := Prod.mk.inj (Except.ok.inj (hfirst.symm.trans hnext))
    exact ⟨⟨['é'], "ab".toList, rfl⟩, fun _ _ _ => trivial⟩
  obtain ⟨s, before, rest, answer, next, hrun, -, hstep, -, -, hsame⟩ :=
    session_keeps_place "é\nab".toList [.next] (.skip ['\n']) hallows
  have hearlier : (ofText "é\nab".toList).run [.next] =
      .ok ⟨.behind ['é'] "\nab".toList, .ofText "é\nab".toList⟩ := by decide
  obtain rfl := Except.ok.inj (hearlier.symm.trans hrun)
  have hskip : Session.step ⟨.behind ['é'] "\nab".toList, .ofText "é\nab".toList⟩ (.skip ['\n']) =
      .ok (.nothing, ⟨.behind "é\n".toList "ab".toList, .ofText "é\nab".toList⟩) := by decide
  obtain ⟨rfl, rfl⟩ := Prod.mk.inj (Except.ok.inj (hskip.symm.trans hstep))
  refine ⟨_, _, hrun, hstep, by decide, by decide, fun others t ht hoffset => ?_⟩
  exact hsame others t ht (hoffset.trans (by decide))

end Mustache.Cursor.Session
