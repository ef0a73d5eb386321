import Mustache.Proofs.ByteReading
import Mustache.Proofs.Stripping

/-! What is reported of a line around a place. Nothing but indentation before the place is
reported exactly if there is nothing else, nothing but line blanks behind it likewise, and in both
directions there is only one text that can be reported. Behind a reported rest of a line a new line
begins, or nothing is left. -/
namespace Mustache

namespace Text

variable {w w' t : Text}

/-- The text is the indentation of the last line of another one, which holds nothing else. -/
def IsIndentOf (w t : Text) : Prop :=
  ∃ p, t = p ++ w ∧ (∀ c ∈ w, isIndent c = true) ∧ EndsLine p

/-- The text is the blank first line of another one: it ends with a line feed, or with the text. -/
def IsBlankLineOf (w t : Text) : Prop :=
  ∃ r, t = w ++ r ∧ ((∃ u, w = u ++ ['\n'] ∧ ∀ c ∈ u, isLineBlank c = true) ∨
    r = [] ∧ ∀ c ∈ w, isLineBlank c = true)

lemma EndsLine.breaks_reverse (h : EndsLine t) : Breaks t.reverse := by
  rcases h with rfl | ⟨u, rfl⟩
  · exact breaks_nil
  · rw [List.reverse_concat]
    exact breaks_cons.2 rfl

lemma lineIndent?_reverse_eq_some_iff : lineIndent? t.reverse = some w ↔ w.IsIndentOf t := by
  constructor
  · intro h
    have hbreaks : Breaks (t.reverse.dropWhile isIndent) :=
      atLineStart_iff_breaks.1 (isSome_lineIndent?_iff.1 (Option.isSome_of_eq_some h))
    have hindent := isIndent_of_lineIndent?_eq_some h
    rw [lineIndent?_of_breaks hbreaks, Option.some.injEq] at h
    refine ⟨dropEndWhile isIndent t, ?_, hindent, endsLine_of_breaks (x := []) ?_⟩
    · rw [← h, dropEndWhile, ← List.reverse_append, List.takeWhile_append_dropWhile,
        List.reverse_reverse]
    · rwa [dropEndWhile, List.reverse_reverse, List.append_nil]
  · rintro ⟨p, rfl, hw, hp⟩
    rw [List.reverse_append, lineIndent?_reverse_append hw,
      lineIndent?_eq_some_nil_iff.2 hp.breaks_reverse]
    rfl

lemma lineTail?_eq_some_iff : lineTail? t = some w ↔ w.IsBlankLineOf t := by
  constructor
  · intro h
    have hsplit := lineTail?_append_afterLine (isSome_lineTail?_iff.1 (Option.isSome_of_eq_some h))
    rw [h, Option.getD_some] at hsplit
    refine ⟨afterLine t, hsplit.symm, ?_⟩
    rcases lineTail?_eq_some_cases h with hfeed | ⟨rfl, hall⟩
    · exact .inl hfeed
    · exact .inr ⟨List.append_right_eq_self.1 hsplit, hall⟩
  · rintro ⟨r, rfl, ⟨u, rfl, hu⟩ | ⟨rfl, hw⟩⟩
    · have hrest : (u ++ ['\n'] ++ r).dropWhile isLineBlank = '\n' :: r := by
        rw [List.append_assoc, List.dropWhile_append_of_pos hu]
        simp
      have hrun : (u ++ ['\n'] ++ r).takeWhile isLineBlank = u := by
        rw [List.append_assoc, List.takeWhile_append_of_pos hu]
        simp
      rw [lineTail?_of_breaks (by rw [hrest, breaks_cons]), hrest, hrun]
      rfl
    · rw [List.append_nil]
      have hnil := List.dropWhile_eq_nil_iff.2 hw
      rw [lineTail?_of_breaks (by rw [hnil]; exact breaks_nil), hnil,
        List.takeWhile_eq_self_iff.2 hw, List.take_nil, List.append_nil]

lemma IsIndentOf.unique (h : w.IsIndentOf t) (h' : w'.IsIndentOf t) : w = w' :=
  Option.some.inj
    ((lineIndent?_reverse_eq_some_iff.2 h).symm.trans (lineIndent?_reverse_eq_some_iff.2 h'))

lemma IsBlankLineOf.unique (h : w.IsBlankLineOf t) (h' : w'.IsBlankLineOf t) : w = w' :=
  Option.some.inj ((lineTail?_eq_some_iff.2 h).symm.trans (lineTail?_eq_some_iff.2 h'))

end Text

/-- A line feed behind line blanks leads to the first column of the next line. -/
lemma Position.ofText_append_lineFeed {u : Text} (hu : '\n' ∉ u) (a : Text) :
    ofText (a ++ (u ++ ['\n'])) = ⟨min limit ((ofText a).line + 1), 1⟩ := by
  have hlast : (a ++ (u ++ ['\n'])).lastLine = [] := by
    rw [← List.append_assoc]
    exact Text.lastLine_concat_lineFeed _
  rw [ofText, hlast, List.count_append, List.count_append, List.count_eq_zero_of_not_mem hu,
    List.count_singleton_self, ofText, limit]
  simp only [List.length_nil, mk.injEq]
  omega

namespace Reader

lemma lineIndent?_behind_eq_some_iff {a b w : Text} :
    (behind a b).lineIndent? = some w ↔ w.IsIndentOf a := by
  rw [lineIndent?, consumed_behind]
  exact Text.lineIndent?_reverse_eq_some_iff

lemma lineTail?_behind_eq_some_iff {a b w : Text} :
    (behind a b).lineTail? = some w ↔ w.IsBlankLineOf b := by
  rw [lineTail?, rest_behind]
  exact Text.lineTail?_eq_some_iff

/-- A new line begins at the place behind some text. -/
lemma lineIndent?_behind_lineFeed (a u b : Text) :
    (behind (a ++ (u ++ ['\n'])) b).lineIndent? = some [] := by
  rw [lineIndent?_behind_eq_some_iff]
  exact ⟨a ++ (u ++ ['\n']), by simp, by simp, .inr ⟨a ++ u, by simp⟩⟩

lemma position_behind (a b : Text) : (behind a b).position = .ofText a := by
  rw [(at_behind a b).position, consumed_behind, List.reverse_reverse]

end Reader

/-- The reports of a line's blanks are exact, at every place of every source: what is reported
before the place is the indentation of its line, what is reported behind it is the blank rest of its
line, and neither leaves a choice. Over a reported rest a reader may move, and it comes to the
end or to the first column of the next line. Reading by byte offsets reports the same. -/
theorem lineReports_exact (a b : Text) :
    (∀ w, (Reader.behind a b).lineIndent? = some w ↔ w.IsIndentOf a) ∧
    (∀ w, (Reader.behind a b).lineTail? = some w ↔ w.IsBlankLineOf b) ∧
    (∀ w w' : Text, w.IsIndentOf a → w'.IsIndentOf a → w = w') ∧
    (∀ w w' : Text, w.IsBlankLineOf b → w'.IsBlankLineOf b → w = w') ∧
    (∀ w, (Reader.behind a b).lineTail? = some w → ∃ r, b = w ++ r ∧
      (Reader.behind a b).skip w = .behind (a ++ w) r ∧
      (Cursor.behind a b).skip w = .ok (.behind (a ++ w) r) ∧
      (r = [] ∨ (Reader.behind (a ++ w) r).lineIndent? = some [] ∧
        (Reader.behind (a ++ w) r).position =
          ⟨min Position.limit ((Reader.behind a b).position.line + 1), 1⟩)) ∧
    (Cursor.behind a b).lineIndent? = .ok (Reader.behind a b).lineIndent? ∧
    (Cursor.behind a b).lineTail? = .ok (Reader.behind a b).lineTail? := by
  refine ⟨fun w => Reader.lineIndent?_behind_eq_some_iff,
    fun w => Reader.lineTail?_behind_eq_some_iff, fun w w' => Text.IsIndentOf.unique,
    fun w w' => Text.IsBlankLineOf.unique, fun w hw => ?_, ?_, ?_⟩
  · obtain ⟨r, rfl, hcases⟩ := Reader.lineTail?_behind_eq_some_iff.1 hw
    have hskip : (Reader.behind a (w ++ r)).skip w = .behind (a ++ w) r :=
      Reader.advance_behind a w r
    have hchecked := Reader.skip_cursor (Reader.at_behind a (w ++ r)) (t := w)
      (by rw [Reader.rest_behind]; exact List.prefix_append w r)
    rw [hskip, Reader.cursor_behind, Reader.cursor_behind] at hchecked
    refine ⟨r, rfl, hskip, hchecked, ?_⟩
    rcases hcases with ⟨u, rfl, hu⟩ | ⟨rfl, -⟩
    · refine .inr ⟨Reader.lineIndent?_behind_lineFeed a u r, ?_⟩
      rw [Reader.position_behind, Reader.position_behind]
      exact Position.ofText_append_lineFeed
        (Text.not_lineFeed_mem Text.isLineBlank_lineFeed hu) a
    · exact .inl rfl
  · have hchecked := (Reader.behind a b).lineIndent?_cursor
    rwa [Reader.cursor_behind] at hchecked
  · have hchecked := (Reader.behind a b).lineTail?_cursor
    rwa [Reader.cursor_behind] at hchecked

/-- Behind the tab of the second line, a space and a carriage return lead over the line feed to the
third line. -/
theorem lineReports_exact_carriageReturn :
    (Reader.behind "x\n\t".toList " \r\ny".toList).lineIndent? = some ['\t'] ∧
      (Reader.behind "x\n\t \r\n".toList ['y']).position = ⟨3, 1⟩ := by
  obtain ⟨hindent, htail, -, -, hskip, -⟩ := lineReports_exact "x\n\t".toList " \r\ny".toList
  have hreport : (Reader.behind "x\n\t".toList " \r\ny".toList).lineTail? =
      some " \r\n".toList := by decide
  obtain ⟨r, hr, -, -, hplace⟩ := hskip _ hreport
  have hsplit : " \r\n".toList ++ ['y'] = " \r\ny".toList := by decide
  obtain rfl : ['y'] = r := List.append_cancel_left (hsplit.trans hr)
  have hnext := (hplace.resolve_left (by decide)).2
  have hblank : ∀ c ∈ ['\t'], isIndent c = true := List.forall_mem_singleton.2 rfl
  refine ⟨(hindent _).2 ⟨"x\n".toList, by decide, hblank, .inr ⟨['x'], by decide⟩⟩, ?_⟩
  exact hnext.trans (by decide)

end Mustache
