import Mathlib.Data.List.DropRight
import Mathlib.Data.List.TakeWhile
import Mustache.Text.Lines

/-! Places at the start and at the end of a line. Both are said by what lies between the place
and the nearest line feed, and tied to the functions that report what lies there. -/
namespace Mustache.Text

/-- A line is over at the front of a text: nothing is left, or a line feed comes next. -/
def Breaks (t : Text) : Prop := t = [] ∨ ∃ q, t = '\n' :: q

/-- Nothing but indentation lies between a place and the last line feed before it, or the start
of the text. `before` holds the characters before the place, newest first. -/
def AtLineStart (before : Text) : Prop :=
  ∃ w p, before = w ++ p ∧ (∀ c ∈ w, isIndent c = true) ∧ Breaks p

/-- Nothing but line blanks lies between a place and the next line feed, or the end of the
text. -/
def AtLineEnd (after : Text) : Prop :=
  ∃ w r, after = w ++ r ∧ (∀ c ∈ w, isLineBlank c = true) ∧ Breaks r

/-- What follows the first line feed of a text. -/
def afterLine (t : Text) : Text := (t.dropWhile (· != '\n')).tail

@[simp] lemma breaks_nil : Breaks [] := .inl rfl

@[simp] lemma breaks_cons {c : Char} {t : Text} : Breaks (c :: t) ↔ c = '\n' := by
  constructor
  · rintro (h | ⟨q, h⟩)
    · cases h
    · exact (List.cons.inj h).1
  · rintro rfl
    exact .inr ⟨t, rfl⟩

@[simp] lemma isIndent_lineFeed : isIndent '\n' = false := rfl

@[simp] lemma isLineBlank_lineFeed : isLineBlank '\n' = false := rfl

lemma isLineBlank_of_isIndent {c : Char} (h : isIndent c = true) : isLineBlank c = true := by
  simp [isLineBlank, h]

lemma isBlank_of_isLineBlank {c : Char} (h : isLineBlank c = true) : isBlank c = true := by
  simp only [isLineBlank, Bool.or_eq_true, beq_iff_eq] at h
  rcases h with h | rfl
  · exact isBlank_of_isIndent h
  · rfl

lemma isIndent_eq_false_of_not_blank {c : Char} (h : isBlank c = false) : isIndent c = false := by
  by_contra hc
  rw [isBlank_of_isIndent (by simpa using hc)] at h
  cases h

lemma isLineBlank_eq_false_of_not_blank {c : Char} (h : isBlank c = false) :
    isLineBlank c = false := by
  by_contra hc
  rw [isBlank_of_isLineBlank (by simpa using hc)] at h
  cases h

lemma ne_lineFeed_of_not_blank {c : Char} (h : isBlank c = false) : c ≠ '\n' := by
  rintro rfl
  cases h

/-- A text begins with a run of a class up to the end of its line exactly if dropping the class
leads there. -/
lemma exists_run_iff {q : Char → Bool} (hq : q '\n' = false) {t : Text} :
    (∃ w r, t = w ++ r ∧ (∀ c ∈ w, q c = true) ∧ Breaks r) ↔ Breaks (t.dropWhile q) := by
  constructor
  · rintro ⟨w, r, rfl, hw, rfl | ⟨x, rfl⟩⟩
    · simp [List.dropWhile_eq_nil_iff.2 hw]
    · rw [List.dropWhile_append_of_pos hw]
      simp [hq]
  · intro h
    exact ⟨t.takeWhile q, t.dropWhile q, List.takeWhile_append_dropWhile.symm,
      fun c hc => List.mem_takeWhile_imp hc, h⟩

lemma atLineStart_iff_breaks {before : Text} :
    AtLineStart before ↔ Breaks (before.dropWhile isIndent) := exists_run_iff rfl

lemma atLineEnd_iff_breaks {after : Text} :
    AtLineEnd after ↔ Breaks (after.dropWhile isLineBlank) := exists_run_iff rfl

lemma lineIndent?_of_breaks {before : Text} (h : Breaks (before.dropWhile isIndent)) :
    lineIndent? before = some (before.takeWhile isIndent).reverse := by
  unfold lineIndent?
  split
  · rfl
  next c _ hdrop =>
    rw [hdrop, breaks_cons] at h
    simp [h]

lemma lineIndent?_of_not_breaks {before : Text} (h : ¬ Breaks (before.dropWhile isIndent)) :
    lineIndent? before = none := by
  unfold lineIndent?
  split
  next hdrop => simp [hdrop] at h
  next c _ hdrop =>
    rw [hdrop, breaks_cons] at h
    simp [h]

lemma lineTail?_of_breaks {after : Text} (h : Breaks (after.dropWhile isLineBlank)) :
    lineTail? after =
      some (after.takeWhile isLineBlank ++ (after.dropWhile isLineBlank).take 1) := by
  unfold lineTail?
  split
  next hdrop => simp [hdrop, List.takeWhile_eq_self_iff.2 (List.dropWhile_eq_nil_iff.1 hdrop)]
  next c _ hdrop =>
    rw [hdrop, breaks_cons] at h
    simp [hdrop, h]

lemma lineTail?_of_not_breaks {after : Text} (h : ¬ Breaks (after.dropWhile isLineBlank)) :
    lineTail? after = none := by
  unfold lineTail?
  split
  next hdrop => simp [hdrop] at h
  next c _ hdrop =>
    rw [hdrop, breaks_cons] at h
    simp [h]

lemma isSome_lineIndent?_iff {before : Text} :
    (lineIndent? before).isSome ↔ AtLineStart before := by
  rw [atLineStart_iff_breaks]
  by_cases h : Breaks (before.dropWhile isIndent)
  · simp [lineIndent?_of_breaks h, h]
  · simp [lineIndent?_of_not_breaks h, h]

lemma isSome_lineTail?_iff {after : Text} : (lineTail? after).isSome ↔ AtLineEnd after := by
  rw [atLineEnd_iff_breaks]
  by_cases h : Breaks (after.dropWhile isLineBlank)
  · simp [lineTail?_of_breaks h, h]
  · simp [lineTail?_of_not_breaks h, h]

instance (before : Text) : Decidable (AtLineStart before) :=
  decidable_of_iff _ isSome_lineIndent?_iff

instance (after : Text) : Decidable (AtLineEnd after) :=
  decidable_of_iff _ isSome_lineTail?_iff

/-- At the start of a line, what precedes a place on its line is its indentation. -/
lemma takeWhile_of_atLineStart {before : Text} (h : AtLineStart before) :
    before.takeWhile (· != '\n') = before.takeWhile isIndent := by
  obtain ⟨w, p, rfl, hw, hp⟩ := h
  have hline : ∀ c ∈ w, (c != '\n') = true := fun c hc =>
    bne_iff_ne.2 fun hfeed => by simpa [hfeed] using hw c hc
  rw [List.takeWhile_append_of_pos hline, List.takeWhile_append_of_pos hw]
  obtain rfl | ⟨q, rfl⟩ := hp <;> simp

/-! Looking back over a text in two parts. -/

lemma lineIndent?_append_indent {w x : Text} (hw : ∀ c ∈ w, isIndent c = true) :
    lineIndent? (w ++ x) = (lineIndent? x).map (· ++ w.reverse) := by
  have hdrop : (w ++ x).dropWhile isIndent = x.dropWhile isIndent :=
    List.dropWhile_append_of_pos hw
  by_cases h : Breaks (x.dropWhile isIndent)
  · rw [lineIndent?_of_breaks h, lineIndent?_of_breaks (hdrop ▸ h),
      List.takeWhile_append_of_pos hw]
    simp
  · rw [lineIndent?_of_not_breaks h, lineIndent?_of_not_breaks (hdrop ▸ h)]
    rfl

lemma lineIndent?_reverse_append {g : Text} (hg : ∀ c ∈ g, isIndent c = true) (x : Text) :
    lineIndent? (g.reverse ++ x) = (lineIndent? x).map (· ++ g) := by
  rw [lineIndent?_append_indent fun c hc => hg c (List.mem_reverse.1 hc), List.reverse_reverse]

/-- A character that is no indentation hides everything before it. -/
lemma lineIndent?_append_of_mem {w x : Text} {c : Char} (hc : c ∈ w) (hn : isIndent c = false) :
    lineIndent? (w ++ x) = lineIndent? w := by
  obtain ⟨a, t, hdrop⟩ : ∃ a t, w.dropWhile isIndent = a :: t := by
    cases hd : w.dropWhile isIndent with
    | nil =>
      rw [List.dropWhile_eq_nil_iff.1 hd c hc] at hn
      cases hn
    | cons a t => exact ⟨a, t, rfl⟩
  have hsplit : w = w.takeWhile isIndent ++ a :: t := by
    rw [← hdrop, List.takeWhile_append_dropWhile]
  have ha : isIndent a = false := by
    have h := List.head?_dropWhile_not isIndent w
    simpa [hdrop] using h
  have hall : ∀ b ∈ w.takeWhile isIndent, isIndent b = true :=
    fun b hb => List.mem_takeWhile_imp hb
  rw [hsplit, List.append_assoc, lineIndent?_append_indent hall, lineIndent?_append_indent hall]
  by_cases hlf : a = '\n' <;> simp [lineIndent?, ha, hlf]

@[simp] lemma lineIndent?_lineFeed (x : Text) : lineIndent? ('\n' :: x) = some [] := by
  simp [lineIndent?]

lemma lineIndent?_cons_of_not_blank {c : Char} (hc : isBlank c = false) (x : Text) :
    lineIndent? (c :: x) = none := by
  simp [lineIndent?, isIndent_eq_false_of_not_blank hc, ne_lineFeed_of_not_blank hc]

/-- A place right behind a line end. -/
lemma lineIndent?_eq_some_nil_iff {before : Text} :
    lineIndent? before = some [] ↔ Breaks before := by
  cases before with
  | nil => simp
  | cons c t =>
    by_cases hindent : isIndent c = true
    · rw [← List.singleton_append, lineIndent?_append_indent (by simpa using hindent)]
      have hc : c ≠ '\n' := by
        rintro rfl
        cases hindent
      simp [hc]
    · simp [lineIndent?, hindent]

lemma isIndent_of_lineIndent?_eq_some {before i : Text} (h : lineIndent? before = some i) :
    ∀ c ∈ i, isIndent c = true := by
  by_cases hb : Breaks (before.dropWhile isIndent)
  · rw [lineIndent?_of_breaks hb, Option.some.injEq] at h
    intro c hc
    rw [← h, List.mem_reverse] at hc
    exact List.mem_takeWhile_imp hc
  · rw [lineIndent?_of_not_breaks hb] at h
    cases h

/-- Looking back depends on a text only through the indentation of its own last line. -/
lemma lineIndent?_append_congr {x y : Text} (h : lineIndent? x = lineIndent? y) (w : Text) :
    lineIndent? (w ++ x) = lineIndent? (w ++ y) := by
  by_cases hw : ∀ c ∈ w, isIndent c = true
  · rw [lineIndent?_append_indent hw, lineIndent?_append_indent hw, h]
  · simp only [not_forall, Bool.not_eq_true] at hw
    obtain ⟨c, hc, hn⟩ := hw
    rw [lineIndent?_append_of_mem hc hn, lineIndent?_append_of_mem hc hn]

lemma lineIndent?_append_lineFeed (w x : Text) : lineIndent? (w ++ '\n' :: x) = lineIndent? w := by
  have h : lineIndent? ('\n' :: x) = lineIndent? [] := lineIndent?_lineFeed x
  rw [lineIndent?_append_congr h, List.append_nil]

lemma atLineStart_congr {x y : Text} (h : lineIndent? x = lineIndent? y) :
    AtLineStart x ↔ AtLineStart y := by
  rw [← isSome_lineIndent?_iff, ← isSome_lineIndent?_iff, h]

/-! The rest of a line. -/

lemma not_lineFeed_mem {w : Text} {q : Char → Bool} (hq : q '\n' = false)
    (hw : ∀ c ∈ w, q c = true) : '\n' ∉ w := by
  intro h
  rw [hw _ h] at hq
  cases hq

lemma afterLine_append_lineFeed {w : Text} (hw : '\n' ∉ w) (t : Text) :
    afterLine (w ++ '\n' :: t) = t := by
  have hall : ∀ c ∈ w, (c != '\n') = true := by
    intro c hc
    simp only [bne_iff_ne, ne_eq]
    rintro rfl
    exact hw hc
  rw [afterLine, List.dropWhile_append_of_pos hall]
  simp

lemma afterLine_of_notMem {t : Text} (ht : '\n' ∉ t) : afterLine t = [] := by
  have hall : ∀ c ∈ t, (c != '\n') = true := by
    intro c hc
    simp only [bne_iff_ne, ne_eq]
    rintro rfl
    exact ht hc
  rw [afterLine, List.dropWhile_eq_nil_iff.2 hall]
  rfl

lemma afterLine_append_of_mem {x : Text} (hx : '\n' ∈ x) (y : Text) :
    afterLine (x ++ y) = afterLine x ++ y := by
  obtain ⟨w, t, rfl, hw⟩ := List.eq_append_cons_of_mem hx
  rw [List.append_assoc, List.cons_append, afterLine_append_lineFeed hw,
    afterLine_append_lineFeed hw]

/-- Looking ahead stops at a line feed. -/
lemma atLineEnd_append_of_mem {x : Text} (hx : '\n' ∈ x) (y : Text) :
    AtLineEnd (x ++ y) ↔ AtLineEnd x := by
  obtain ⟨c, t, hdrop⟩ : ∃ c t, x.dropWhile isLineBlank = c :: t := by
    cases hd : x.dropWhile isLineBlank with
    | nil => exact absurd (List.dropWhile_eq_nil_iff.1 hd _ hx) (by simp)
    | cons c t => exact ⟨c, t, rfl⟩
  rw [atLineEnd_iff_breaks, atLineEnd_iff_breaks, List.dropWhile_append, hdrop]
  simp

lemma atLineEnd_lineFeed {w : Text} (hw : ∀ c ∈ w, isLineBlank c = true) (t : Text) :
    AtLineEnd (w ++ '\n' :: t) := ⟨w, '\n' :: t, rfl, hw, by simp⟩

/-- Where something that is not blank follows, the line feed comes before it. -/
lemma atLineEnd_append_cons_iff {g y : Text} {c : Char} (hc : isBlank c = false) :
    AtLineEnd (g ++ c :: y) ↔ ∃ w t, g = w ++ '\n' :: t ∧ ∀ a ∈ w, isLineBlank a = true := by
  constructor
  · intro h
    rw [atLineEnd_iff_breaks, List.dropWhile_append] at h
    cases hd : g.dropWhile isLineBlank with
    | nil =>
      rw [hd] at h
      simp [isLineBlank_eq_false_of_not_blank hc, ne_lineFeed_of_not_blank hc] at h
    | cons a t =>
      rw [hd] at h
      simp only [List.isEmpty_cons, Bool.false_eq_true, if_false, List.cons_append,
        breaks_cons] at h
      refine ⟨g.takeWhile isLineBlank, t, ?_, fun b hb => List.mem_takeWhile_imp hb⟩
      rw [← h, ← hd, List.takeWhile_append_dropWhile]
  · rintro ⟨w, t, rfl, hw⟩
    rw [List.append_assoc]
    exact atLineEnd_lineFeed hw (t ++ c :: y)

/-- Blanks before something that is not blank do not end a line. -/
lemma atLineEnd_append_blanks_iff {g w x y : Text} {b c : Char} (hb : isBlank b = false)
    (hc : isBlank c = false) (hw : ∀ a ∈ w, isLineBlank a = true) :
    AtLineEnd (g ++ w ++ b :: x) ↔ AtLineEnd (g ++ c :: y) := by
  have hdrop : w.dropWhile isLineBlank = [] := List.dropWhile_eq_nil_iff.2 hw
  rw [atLineEnd_iff_breaks, atLineEnd_iff_breaks]
  cases hg : g.dropWhile isLineBlank with
  | nil =>
    simp [List.dropWhile_append, hg, hdrop, isLineBlank_eq_false_of_not_blank,
      ne_lineFeed_of_not_blank, hb, hc]
  | cons a t => simp [List.dropWhile_append, hg]

/-- At the end of a line, what goes away with the line and what follows the line make up the
text. -/
lemma lineTail?_append_afterLine {t : Text} (h : AtLineEnd t) :
    (lineTail? t).getD [] ++ afterLine t = t := by
  rw [lineTail?_of_breaks (atLineEnd_iff_breaks.1 h)]
  obtain ⟨w, r, rfl, hw, rfl | ⟨q, rfl⟩⟩ := h
  · rw [List.append_nil, afterLine_of_notMem (not_lineFeed_mem isLineBlank_lineFeed hw)]
    simp [List.dropWhile_eq_nil_iff.2 hw, List.takeWhile_eq_self_iff.2 hw]
  · rw [afterLine_append_lineFeed (not_lineFeed_mem isLineBlank_lineFeed hw),
      List.takeWhile_append_of_pos hw, List.dropWhile_append_of_pos hw]
    simp

/-! Taking a run off the end. -/

lemma dropEndWhile_append_of_all {p : Char → Bool} {w : Text} (hw : ∀ c ∈ w, p c = true)
    (t : Text) : dropEndWhile p (t ++ w) = dropEndWhile p t := by
  rw [dropEndWhile, List.reverse_append,
    List.dropWhile_append_of_pos fun c hc => hw c (List.mem_reverse.1 hc)]
  rfl

lemma dropEndWhile_concat_of_not {p : Char → Bool} {c : Char} (hc : p c = false) (t : Text) :
    dropEndWhile p (t ++ [c]) = t ++ [c] :=
  List.rdropWhile_concat_neg p t c (by simp [hc])

lemma exists_dropEndWhile_append (p : Char → Bool) (t : Text) :
    ∃ w, t = dropEndWhile p t ++ w ∧ ∀ c ∈ w, p c = true :=
  ⟨t.rtakeWhile p, List.rdropWhile_append_rtakeWhile.symm,
    fun _ hc => List.mem_rtakeWhile_imp hc⟩

/-- What is left after taking a run off the end is empty or ends outside the class. -/
lemma dropEndWhile_eq_nil_or_concat (p : Char → Bool) (t : Text) :
    dropEndWhile p t = [] ∨ ∃ u c, dropEndWhile p t = u ++ [c] ∧ p c = false := by
  by_cases h : dropEndWhile p t = []
  · exact .inl h
  · refine .inr ⟨_, _, (List.dropLast_concat_getLast h).symm, ?_⟩
    exact Bool.eq_false_iff.2 (List.rdropWhile_last_not p t h)

lemma dropEndWhile_append_cons {p : Char → Bool} {c : Char} (hc : p c = false) (t x : Text) :
    dropEndWhile p (t ++ c :: x) = t ++ c :: dropEndWhile p x := by
  simp only [dropEndWhile, List.reverse_append, List.reverse_cons, List.append_assoc,
    List.singleton_append, List.dropWhile_append, List.dropWhile_cons_of_neg (l := t.reverse)
      (show ¬ p c = true by simp [hc])]
  by_cases h : x.reverse.dropWhile p = []
  · simp [h]
  · simp [h]

/-! Texts that end a line. -/

/-- Text that ends a line: there is none of it, or its last character is a line feed. -/
def EndsLine (t : Text) : Prop := t = [] ∨ ∃ u, t = u ++ ['\n']

lemma endsLine_of_breaks {t x : Text} (h : Breaks (t.reverse ++ x)) : EndsLine t := by
  rcases List.eq_nil_or_concat' t with rfl | ⟨u, c, rfl⟩
  · exact .inl rfl
  · rw [List.reverse_append, List.reverse_singleton, List.singleton_append, List.cons_append,
      breaks_cons] at h
    exact .inr ⟨u, by rw [h]⟩

lemma endsLine_of_suffix {t u : Text} (h : t <:+ u ++ ['\n']) : EndsLine t := by
  rcases List.suffix_concat_iff.1 h with h | ⟨v, hv, -⟩
  · exact .inl h
  · exact .inr ⟨v, hv⟩

/-- In front of a place that starts a line, only indentation lies behind the last line feed. -/
lemma endsLine_dropEndWhile {gap before : Text} (h : AtLineStart (gap.reverse ++ before)) :
    EndsLine (dropEndWhile isIndent gap) := by
  rcases dropEndWhile_eq_nil_or_concat isIndent gap with hnil | ⟨u, c, hconcat, hc⟩
  · exact .inl hnil
  · obtain ⟨w, hgap, hw⟩ := exists_dropEndWhile_append isIndent gap
    rw [hconcat] at hgap ⊢
    rw [hgap, ← isSome_lineIndent?_iff, List.reverse_append, List.append_assoc,
      lineIndent?_reverse_append hw, Option.isSome_map] at h
    by_cases hfeed : c = '\n'
    · exact .inr ⟨u, by rw [hfeed]⟩
    · simp [lineIndent?, hc, hfeed] at h

lemma afterLine_suffix (t : Text) : afterLine t <:+ t :=
  (List.tail_suffix _).trans (List.dropWhile_suffix _)

/-- Indentation behind the end of a line is taken off up to that end only. -/
lemma dropEndWhile_append_of_endsLine {t : Text} (ht : EndsLine t) (x : Text) :
    dropEndWhile isIndent (t ++ x) = t ++ dropEndWhile isIndent x := by
  rcases ht with rfl | ⟨u, rfl⟩
  · rfl
  · rw [List.append_assoc, List.append_assoc]
    exact dropEndWhile_append_cons isIndent_lineFeed u x

end Mustache.Text
