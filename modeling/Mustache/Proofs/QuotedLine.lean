import Mathlib.Algebra.Group.Nat.Defs
import Mustache.Diagnostic
import Mustache.Proofs.Abreast
import Mustache.Proofs.CarriageReturns

/-! Failures shown in their source. A diagnostic splits the source into lines anew, without the
carriage returns at their ends; still the line that it quotes is the line of the failure, and the
caret stands under a character of it or right behind it, because the lexer gives up at the end of
the source or right behind a closing sequence, which does not end with a carriage return. -/
namespace Mustache

namespace Text

/-- A line as it is shown in front of `after`, which begins with the line feed that ends the line
or is the end of the text: a carriage return right before the line feed goes away with it. -/
inductive ShownAs : Text → Text → Text → Prop
  | last (line : Text) : ShownAs line [] line
  | returned (line later : Text) : ShownAs (line ++ ['\r']) ('\n' :: later) line
  | plain {line : Text} (later : Text) (h : ∀ u, line ≠ u ++ ['\r']) :
    ShownAs line ('\n' :: later) line

/-- The `n`-th line of a text, counted from one, as it is shown. Behind a last line feed there is
an empty line. -/
def IsLine (t : Text) (n : Nat) (shown : Text) : Prop :=
  ∃ before line after, t = before ++ (line ++ after) ∧ EndsLine before ∧
    before.count '\n' + 1 = n ∧ '\n' ∉ line ∧ ShownAs line after shown

variable {line after shown : Text}

lemma exists_shownAs (line : Text) (hafter : Breaks after) : ∃ shown, ShownAs line after shown := by
  rcases hafter with rfl | ⟨later, rfl⟩
  · exact ⟨line, .last line⟩
  · by_cases h : ∃ u, line = u ++ ['\r']
    · obtain ⟨u, rfl⟩ := h
      exact ⟨u, .returned u later⟩
    · exact ⟨line, .plain later fun u hu => h ⟨u, hu⟩⟩

/-- Taking a carriage return away leaves a part that does not end with one. -/
lemma ShownAs.prefix_of_append {front back : Text} (h : ShownAs (front ++ back) after shown)
    (hfront : after = [] ∨ ∀ u, front ≠ u ++ ['\r']) : front <+: shown := by
  generalize hline : front ++ back = line at h
  cases h with
  | last => exact ⟨back, hline⟩
  | plain later h => exact ⟨back, hline⟩
  | returned line later =>
    have hfront := hfront.resolve_left (by simp)
    rcases List.eq_nil_or_concat' back with rfl | ⟨w, c, rfl⟩
    · rw [List.append_nil] at hline
      exact absurd hline (hfront shown)
    · rw [← List.append_assoc] at hline
      exact ⟨w, (List.append_inj' hline rfl).1⟩

lemma endLine_reverse (h : ShownAs line ('\n' :: after) shown) : endLine line.reverse = shown := by
  cases h with
  | returned line => simp [endLine]
  | plain _ hno =>
    unfold endLine
    split
    next u hu =>
      refine absurd ?_ (hno u.reverse)
      rw [← List.reverse_reverse line, hu, List.reverse_cons]
    next => exact List.reverse_reverse line

lemma notMem_lastLine (t : Text) : '\n' ∉ lastLine t := fun h => by
  simpa using List.mem_rtakeWhile_imp h

lemma breaks_dropWhile (t : Text) : Breaks (t.dropWhile (· != '\n')) := by
  cases hdrop : t.dropWhile (· != '\n') with
  | nil => exact breaks_nil
  | cons c later =>
    have hhead := List.head?_dropWhile_not (· != '\n') t
    rw [hdrop] at hhead
    exact breaks_cons.2 (by simpa using hhead)

/-- The line of a place begins with what lies between the last line feed and the place, unless a
carriage return of the line's end lies there. -/
lemma exists_isLine_append {front back : Text}
    (h : back = [] ∨ ∃ t c, front = t ++ [c] ∧ isBlank c = false) :
    ∃ shown, (front ++ back).IsLine (front.count '\n' + 1) shown ∧ lastLine front <+: shown := by
  obtain ⟨before, hfront, hbefore⟩ := exists_append_lastLine front
  have hlast := notMem_lastLine front
  have hcount : front.count '\n' = before.count '\n' := by
    conv_lhs => rw [hfront, List.count_append, List.count_eq_zero_of_not_mem hlast]
    rfl
  have hrest : '\n' ∉ back.takeWhile (· != '\n') := fun hmem => by
    simpa using List.mem_takeWhile_imp hmem
  obtain ⟨shown, hshown⟩ :=
    exists_shownAs (lastLine front ++ back.takeWhile (· != '\n')) (breaks_dropWhile back)
  refine ⟨shown, ⟨before, _, _, ?_, hbefore, by rw [hcount], ?_, hshown⟩,
    hshown.prefix_of_append ?_⟩
  · conv_lhs => rw [hfront, ← List.takeWhile_append_dropWhile (p := (· != '\n')) (l := back)]
    simp only [List.append_assoc]
  · rw [List.mem_append, not_or]
    exact ⟨hlast, hrest⟩
  · rcases h with rfl | ⟨t, c, hconcat, hc⟩
    · exact .inl rfl
    · refine .inr fun u hu => ?_
      rw [hu, hconcat, ← List.append_assoc] at hfront
      have hreturn : c = '\r' := List.singleton_inj.1 (List.append_inj' hfront rfl).2
      subst hreturn
      cases hc

/-! The lines of a text, as they are collected. -/

lemma linesFrom_eq_append (done : List Text) (line t : Text) :
    linesFrom done line t = done.reverse ++ linesFrom [] line t := by
  induction t generalizing done line with
  | nil => cases line <;> simp [linesFrom]
  | cons c t ih =>
    by_cases hc : c = '\n'
    · simp only [linesFrom, hc, beq_self_eq_true, if_true]
      rw [ih (endLine line :: done), ih [endLine line]]
      simp
    · simp only [linesFrom, beq_eq_false_iff_ne.2 hc, Bool.false_eq_true, if_false]
      exact ih done (c :: line)

lemma linesFrom_append {w : Text} (hw : '\n' ∉ w) (line t : Text) :
    linesFrom [] line (w ++ t) = linesFrom [] (w.reverse ++ line) t := by
  induction w generalizing line with
  | nil => rfl
  | cons c w ih =>
    rw [List.mem_cons, not_or] at hw
    simp only [List.cons_append, linesFrom, beq_eq_false_iff_ne.2 (Ne.symm hw.1),
      Bool.false_eq_true, if_false]
    rw [ih hw.2, List.reverse_cons, List.append_assoc, List.singleton_append]

lemma lines_append_lineFeed {w : Text} (hw : '\n' ∉ w) (t : Text) :
    lines (w ++ '\n' :: t) = endLine w.reverse :: lines t := by
  rw [lines, linesFrom_append hw, List.append_nil]
  simp only [linesFrom, beq_self_eq_true, if_true]
  rw [linesFrom_eq_append]
  rfl

lemma lines_of_notMem {t : Text} (ht : '\n' ∉ t) : lines t = if t = [] then [] else [t] := by
  have h := linesFrom_append ht [] []
  rw [List.append_nil, List.append_nil] at h
  rw [lines, h, linesFrom]
  simp

/-- Text that ends a line has as many lines as line feeds, and the lines of what follows it come
behind them. -/
lemma lines_append_of_endsLine {a : Text} (ha : EndsLine a) (b : Text) :
    lines (a ++ b) = lines a ++ lines b ∧ (lines a).length = a.count '\n' := by
  induction a using lineInduction with
  | line t ht =>
    rcases ha with rfl | ⟨u, rfl⟩
    · exact ⟨rfl, rfl⟩
    · exact absurd (by simp) ht
  | lineFeed w t hw ih =>
    have ht : EndsLine t := by
      rcases ha with h | ⟨u, h⟩
      · simp at h
      · exact endsLine_of_suffix (u := u) ⟨w ++ ['\n'], by rw [← h]; simp⟩
    obtain ⟨hlines, hlength⟩ := ih ht
    constructor
    · rw [List.append_assoc, List.cons_append, lines_append_lineFeed hw, lines_append_lineFeed hw,
        hlines]
      rfl
    · rw [lines_append_lineFeed hw, List.length_cons, hlength, List.count_append,
        List.count_eq_zero_of_not_mem hw, List.count_cons_self, Nat.zero_add]

lemma getD_lines_append (hline : '\n' ∉ line) (h : ShownAs line after shown) :
    (lines (line ++ after))[0]?.getD [] = shown := by
  cases after with
  | nil =>
    cases h
    rw [List.append_nil, lines_of_notMem hline]
    by_cases hempty : line = [] <;> simp [hempty]
  | cons c later =>
    obtain rfl : c = '\n' := by cases h <;> rfl
    rw [lines_append_lineFeed hline, endLine_reverse h]
    rfl

end Text

/-- A quoted line is the line of its position. -/
lemma Diagnostic.quotedLine_of_isLine {source shown : Text} {position : Position}
    (h : source.IsLine position.line shown) : quotedLine source position = shown := by
  obtain ⟨before, line, after, rfl, hbefore, hcount, hline, hshown⟩ := h
  obtain ⟨hlines, hlength⟩ := Text.lines_append_of_endsLine hbefore (line ++ after)
  rw [quotedLine, hlines, ← hcount, Nat.add_sub_cancel, List.getElem?_append_right (by omega),
    hlength, Nat.sub_self]
  exact Text.getD_lines_append hline hshown

lemma exists_concat_of_suffix {p t : Text} (hp : Delimiters.isMark p = true) (h : p <:+ t) :
    ∃ u c, t = u ++ [c] ∧ isBlank c = false := by
  obtain ⟨w, rfl⟩ := h
  obtain ⟨u, c, rfl, hc⟩ := exists_concat_of_isMark hp
  exact ⟨w ++ u, c, by rw [List.append_assoc], hc⟩

/-- A failure lies at the end of the source or behind a character that is not blank. -/
lemma exists_of_tokenize_eq_error {d : Delimiters} (hd : d.Valid) {source : Text}
    {failure : Failure} (h : tokenize d source = .error failure) :
    ∃ front unread, source = front ++ unread ∧ failure.position = .ofText front ∧
      (unread = [] ∨ ∃ t c, front = t ++ [c] ∧ isBlank c = false) := by
  rcases exists_cut hd source with
    ⟨cut, hcut, rfl⟩ | ⟨cut, defect, read, unread, hcut, hfirst, hbroken, rfl⟩
  · rw [tokenize_of_cut hd hcut] at h
    cases h
  · rw [tokenize_of_broken hd hcut hfirst hbroken, Except.error.injEq] at h
    subst h
    refine ⟨cut.text d ++ ((cut.delimiters d).opening ++ read), unread, ?_, ?_, ?_⟩
    · simp only [List.append_assoc]
    · exact Position.start_after _
    · cases hbroken with
      | empty | unclosed => exact .inl rfl
      | missingBrace | badDirective =>
        refine .inr (exists_concat_of_suffix (hcut.valid_delimiters hd).2 ?_)
        simp only [← List.append_assoc]
        exact List.suffix_append _ _

/-- In a short source, neither counter reaches its limit. -/
lemma Position.ofText_of_length_lt {t : Text} (h : t.length < 2 ^ 32 - 1) :
    ofText t = ⟨t.count '\n' + 1, t.lastLine.length + 1⟩ := by
  have hcount := List.count_le_length (a := '\n') (l := t)
  have hlast : t.lastLine.length ≤ t.length := (List.rtakeWhile_suffix _ t).length_le
  rw [ofText, limit]
  congr 1 <;> omega

/-- Around a failure there is the line that it is on, and its column lies within that line as it
is shown, or right behind it. -/
lemma exists_isLine_of_tokenize_eq_error {d : Delimiters} (hd : d.Valid) {source : Text}
    (hsize : source.length < 2 ^ 32 - 1) {failure : Failure}
    (h : tokenize d source = .error failure) :
    ∃ shown, source.IsLine failure.position.line shown ∧
      0 < failure.position.column ∧ failure.position.column ≤ shown.length + 1 := by
  obtain ⟨front, unread, rfl, hposition, hend⟩ := exists_of_tokenize_eq_error hd h
  obtain ⟨shown, hline, hprefix⟩ := Text.exists_isLine_append hend
  have hfront : front.length < 2 ^ 32 - 1 := by
    rw [List.length_append] at hsize
    omega
  rw [hposition, Position.ofText_of_length_lt hfront]
  exact ⟨shown, hline, Nat.succ_pos _, Nat.succ_le_succ hprefix.length_le⟩

namespace Diagnostic

/-- The lines of a report, where a line is quoted and a marker precedes the caret. The gutters are
as wide as the number of the line. -/
def layout (path : Text) (f : Failure) (quoted marker : Text) : List Text :=
  let number := Text.ofNat f.position.line
  let gutter := List.replicate number.length ' '
  [path ++ ':' :: number ++ ':' :: Text.ofNat f.position.column ++ ": error: ".toList ++
      f.defect.message,
    gutter ++ " |".toList,
    number ++ " | ".toList ++ quoted,
    gutter ++ " | ".toList ++ marker ++ ['^'],
    gutter ++ " = help: ".toList ++ f.defect.help]

/-- A report that points at a failure: the line of the failure is quoted, and the caret stands
below its column, behind a tab for each tab of the line and a space for each other character. -/
structure PointsAt (path source : Text) (f : Failure) (report quoted marker : Text) : Prop where
  eq_layout : report = (layout path f quoted marker).flatMap (· ++ ['\n'])
  isLine : source.IsLine f.position.line quoted
  column_le : f.position.column ≤ quoted.length + 1
  length_marker : marker.length + 1 = f.position.column
  mirrors : ∀ n c, n < marker.length → quoted[n]? = some c →
    marker[n]? = some (if c = '\t' then '\t' else ' ')

lemma render_eq_layout (path source : Text) (f : Failure) :
    render path source f =
      (layout path f (quotedLine source f.position)
        (marker (quotedLine source f.position) f.position)).flatMap (· ++ ['\n']) := by
  have hbar : " |\n".toList = " |".toList ++ ['\n'] := rfl
  have hcaret : "^\n".toList = ['^', '\n'] := rfl
  unfold render layout
  simp only [hbar, hcaret, List.flatMap_cons, List.flatMap_nil, List.append_assoc,
    List.cons_append, List.nil_append, List.append_nil]

lemma length_marker {quoted : Text} {position : Position} (hpos : 0 < position.column)
    (hle : position.column ≤ quoted.length + 1) :
    (marker quoted position).length + 1 = position.column := by
  rw [marker, List.length_map, List.length_take]
  omega

lemma getElem?_marker {quoted : Text} {position : Position} {n : Nat} {c : Char}
    (hn : n < (marker quoted position).length) (hc : quoted[n]? = some c) :
    (marker quoted position)[n]? = some (if c = '\t' then '\t' else ' ') := by
  rw [marker, List.length_map, List.length_take] at hn
  rw [marker, List.getElem?_map, List.getElem?_take, if_pos (by omega), hc]
  by_cases htab : c = '\t' <;> simp [htab]

end Diagnostic

/-- The caret of a diagnostic points at the failure, in every source that is short enough for its
places to be counted. -/
theorem render_pointsAt_failure (path : Text) {d : Delimiters} (hd : d.Valid) {source : Text}
    (hsize : source.length < 2 ^ 32 - 1) {failure : Failure}
    (h : tokenize d source = .error failure) :
    Diagnostic.PointsAt path source failure (Diagnostic.render path source failure)
      (Diagnostic.quotedLine source failure.position)
      (Diagnostic.marker (Diagnostic.quotedLine source failure.position) failure.position) := by
  obtain ⟨shown, hline, hpos, hle⟩ := exists_isLine_of_tokenize_eq_error hd hsize h
  have hreport := Diagnostic.render_eq_layout path source failure
  rw [Diagnostic.quotedLine_of_isLine hline] at hreport ⊢
  exact ⟨hreport, hline, hle, Diagnostic.length_marker hpos hle,
    fun n c => Diagnostic.getElem?_marker⟩

/-- In the second line, a tag without its second brace is followed by a blank, and the line ends
with a carriage return. -/
theorem render_pointsAt_missingBrace :
    tokenize .braces "\r\n\t\x7b\x7b\x7bb\x7d\x7d \r\nc".toList =
        .error ⟨⟨2, 8⟩, .missingBrace⟩ ∧
      Diagnostic.PointsAt ['t'] "\r\n\t\x7b\x7b\x7bb\x7d\x7d \r\nc".toList
        ⟨⟨2, 8⟩, .missingBrace⟩
        (Diagnostic.render ['t'] "\r\n\t\x7b\x7b\x7bb\x7d\x7d \r\nc".toList
          ⟨⟨2, 8⟩, .missingBrace⟩)
        "\t\x7b\x7b\x7bb\x7d\x7d ".toList "\t      ".toList := by
  have h : tokenize .braces "\r\n\t\x7b\x7b\x7bb\x7d\x7d \r\nc".toList =
      .error ⟨⟨2, 8⟩, .missingBrace⟩ := by decide +kernel
  exact ⟨h, render_pointsAt_failure ['t'] Delimiters.valid_braces (by decide) h⟩

end Mustache
