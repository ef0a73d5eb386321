import Mustache.Proofs.Place
import Mustache.Proofs.TagReading
import Mustache.Reader.Session

/-! Sessions keep their place. What a command moves over can be told from its answer, so a reader
is at the same place of the source however it came there. -/
namespace Mustache.Reader

/-- Commands that look without moving or saving. -/
def Command.reports : Command → Bool
  | .source | .rest | .slice _ _ | .sliceFrom _ | .peek _ | .startsWith _ => true
  | .lineIndent | .lineTail => true
  | _ => false

/-- The text that a command moves over, where `rest` comes next and the answer is known: what it
returns or has matched. Searches that miss move to the end. -/
def Command.passed (rest : Text) : Command → Answer → Text
  | .next, .text t => t
  | .take _, .text t => t
  | .takeUntil _, .text t => t
  | .takeUntil _, .nothing => rest
  | .takeUntilOrEnd _, .text t => t
  | .takeThrough p, .text t => t ++ p
  | .takeThrough _, .nothing => rest
  | .takeUntilChar _, .text t => t
  | .takeUntilChar _, .nothing => rest
  | .accept p, .flag true => p
  | .skipWhile p none, _ => rest.takeWhile p
  | .skipWhile p (some most), _ => (rest.takeWhile p).take most
  | .skipBlanks, _ => rest.takeWhile isBlank
  | .skip t, _ => t
  | .skipLineTail, .text t => t
  | _, _ => []

/-- What a search for a pattern finds: the text in front of its first occurrence. -/
def Finds (p rest : Text) (found : Option Text) : Prop :=
  (¬ p <:+: rest ∧ found = none) ∨ ∃ t, FirstAfter p t ∧ t ++ p <+: rest ∧ found = some t

/-- What a search for a class of characters finds: the text in front of the first of them. -/
def FindsChar (q : Char → Bool) (rest : Text) (found : Option Text) : Prop :=
  ((∀ a ∈ rest, q a = false) ∧ found = none) ∨
    ∃ t a, (∀ b ∈ t, q b = false) ∧ q a = true ∧ t ++ [a] <+: rest ∧ found = some t

/-- What a command answers at a place of a source, between `before` and `rest`. -/
def Command.Answers (before rest : Text) (answer : Answer) : Command → Prop
  | .source => answer = .text (before ++ rest)
  | .rest => answer = .text rest
  | .slice start stop => answer = .ofSlice? (Text.slice? start stop (before ++ rest))
  | .sliceFrom start =>
    answer = .ofSlice? (Text.slice? start (Text.byteSize before) (before ++ rest))
  | .peek n | .take n => answer = .text (rest.take n)
  | .startsWith p | .accept p => answer = .flag (decide (p <+: rest))
  | .next => answer = .ofText? (rest.head?.map ([·]))
  | .takeUntil p | .takeThrough p => ∃ found, Finds p rest found ∧ answer = .ofText? found
  | .takeUntilOrEnd p => ∃ found, Finds p rest found ∧ answer = .text (found.getD rest)
  | .takeUntilChar q => ∃ found, FindsChar q rest found ∧ answer = .ofText? found
  | .skipWhile q none => answer = .count (rest.takeWhile q).length
  | .skipWhile q (some most) => answer = .count ((rest.takeWhile q).take most).length
  | .skipBlanks => answer = .count (rest.takeWhile isBlank).length
  | .lineIndent => answer = .ofText? (Text.lineIndent? before.reverse)
  | .lineTail | .skipLineTail => answer = .ofText? (Text.lineTail? rest)
  | .skip _ | .save | .restore => answer = .nothing

/-- A text may be skipped only where it comes next; all else may be asked for anywhere. -/
def Command.Allowed (r : Reader) : Command → Prop
  | .skip t => t <+: r.rest
  | _ => True

/-- A reader moves over a text that comes next. -/
def Passes (r : Reader) (t : Text) (r' : Reader) : Prop :=
  t <+: r.rest ∧ r' = r.advance t.length

variable {r r' : Reader} {t : Text}

lemma passes_nil (r : Reader) : r.Passes [] r := ⟨List.nil_prefix, rfl⟩

lemma passes_toEnd (r : Reader) : r.Passes r.rest r.toEnd := ⟨List.prefix_rfl, rfl⟩

lemma passes_take (r : Reader) (n : Nat) : r.Passes (r.rest.take n) (r.advance n) := by
  refine ⟨List.take_prefix n _, ?_⟩
  fun_induction advance n r with
  | case1 r => simp
  | case2 n consumed position => simp
  | case3 n consumed c rest position ih => simpa [advance] using ih

lemma Passes.append {u : Text} {r'' : Reader} (h : r.Passes t r') (h' : r'.Passes u r'') :
    r.Passes (t ++ u) r'' := by
  obtain ⟨⟨v, hv⟩, rfl⟩ := h
  obtain ⟨⟨w, hw⟩, rfl⟩ := h'
  rw [rest_advance_of_append hv.symm rfl] at hw
  refine ⟨⟨w, by rw [List.append_assoc, hw, hv]⟩, ?_⟩
  rw [advance_advance, List.length_append]

lemma Passes.rest (h : r.Passes t r') : r.rest = t ++ r'.rest := by
  obtain ⟨⟨v, hv⟩, rfl⟩ := h
  rw [rest_advance_of_append hv.symm rfl, hv]

lemma Passes.consumed (h : r.Passes t r') : r'.consumed = t.reverse ++ r.consumed := by
  obtain ⟨⟨v, hv⟩, rfl⟩ := h
  exact consumed_advance_of_append hv.symm rfl

/-! What each function of a reader moves over. -/

lemma passes_takeUntil (r : Reader) (p : Text) :
    r.Passes ((r.takeUntil p).1.getD r.rest) (r.takeUntil p).2 := by
  unfold takeUntil
  split
  next n _ => exact passes_take r n
  next => exact passes_toEnd r

lemma passes_takeUntilOrEnd (r : Reader) (p : Text) :
    r.Passes (r.takeUntilOrEnd p).1 (r.takeUntilOrEnd p).2 := by
  unfold takeUntilOrEnd
  split
  next n _ => exact passes_take r n
  next => exact passes_toEnd r

lemma passes_takeUntilChar (r : Reader) (p : Char → Bool) :
    r.Passes ((r.takeUntilChar p).1.getD r.rest) (r.takeUntilChar p).2 := by
  unfold takeUntilChar
  split
  next n _ => exact passes_take r n
  next => exact passes_toEnd r

/-- Where a search stops, the pattern comes next. -/
lemma passes_takeThrough (r : Reader) (p : Text) :
    r.Passes (((r.takeThrough p).1.map (· ++ p)).getD r.rest) (r.takeThrough p).2 := by
  cases hfind : firstIndex? p r.rest with
  | none => simpa [takeThrough, takeUntil, hfind] using passes_toEnd r
  | some n =>
    obtain ⟨u, w, hrest, rfl, -⟩ := exists_of_firstIndex?_eq_some hfind
    have hfound : (r.advance u.length).rest = p ++ w :=
      rest_advance_of_append (by rw [hrest, List.append_assoc]) rfl
    have hpattern : (r.advance u.length).Passes p ((r.advance u.length).advance p.length) :=
      ⟨⟨w, hfound.symm⟩, rfl⟩
    simpa [takeThrough, takeUntil, hfind, peek] using (passes_take r u.length).append hpattern

lemma passes_accept (r : Reader) (p : Text) :
    r.Passes (if (r.accept p).1 then p else []) (r.accept p).2 := by
  by_cases hstart : r.startsWith p = true
  · have hpattern : r.Passes p (r.advance p.length) :=
      ⟨List.isPrefixOf_iff_prefix.1 hstart, rfl⟩
    simpa [accept, hstart] using hpattern
  · simpa [accept, hstart] using passes_nil r

lemma passes_skip_lineTail? (h : r.lineTail? = some t) : r.Passes t (r.skip t) := by
  have hend : Text.AtLineEnd r.rest := Text.isSome_lineTail?_iff.1 (Option.isSome_of_eq_some h)
  have hsplit := Text.lineTail?_append_afterLine hend
  rw [show Text.lineTail? r.rest = some t from h] at hsplit
  exact ⟨⟨_, hsplit⟩, rfl⟩

/-! What each search comes to. -/

lemma startsWith_eq (r : Reader) (p : Text) : r.startsWith p = decide (p <+: r.rest) := by
  rw [Bool.eq_iff_iff, decide_eq_true_iff]
  exact List.isPrefixOf_iff_prefix

lemma fst_accept (r : Reader) (p : Text) : (r.accept p).1 = r.startsWith p := by
  unfold accept
  cases r.startsWith p <;> rfl

lemma finds_takeUntil (r : Reader) (p : Text) : Finds p r.rest (r.takeUntil p).1 := by
  unfold takeUntil
  cases hfind : firstIndex? p r.rest with
  | none => exact .inl ⟨firstIndex?_eq_none_iff.1 hfind, rfl⟩
  | some n =>
    obtain ⟨u, w, hrest, rfl, hu⟩ := exists_of_firstIndex?_eq_some hfind
    refine .inr ⟨u, hu, ⟨w, hrest.symm⟩, ?_⟩
    simp [peek, hrest]

lemma fst_takeUntilOrEnd (r : Reader) (p : Text) :
    (r.takeUntilOrEnd p).1 = (r.takeUntil p).1.getD r.rest := by
  unfold takeUntilOrEnd takeUntil
  cases firstIndex? p r.rest <;> rfl

lemma fst_takeThrough (r : Reader) (p : Text) :
    (r.takeThrough p).1 = (r.takeUntil p).1 := by
  unfold takeThrough
  cases h : r.takeUntil p with
  | mk taken found => cases taken <;> rfl

lemma findsChar_takeUntilChar (r : Reader) (q : Char → Bool) :
    FindsChar q r.rest (r.takeUntilChar q).1 := by
  unfold takeUntilChar
  cases hfind : r.rest.findIdx? q with
  | none => exact .inl ⟨List.findIdx?_eq_none_iff.1 hfind, rfl⟩
  | some n =>
    obtain ⟨hn, hq, hbefore⟩ := List.findIdx?_eq_some_iff_getElem.1 hfind
    refine .inr ⟨r.rest.take n, r.rest[n], ?_, hq, ?_, rfl⟩
    · intro b hb
      obtain ⟨i, hi, rfl⟩ := List.mem_take_iff_getElem.1 hb
      simpa using hbefore i (by omega)
    · rw [← List.take_succ_eq_append_getElem hn]
      exact List.take_prefix _ _

namespace Session

/-- Every command but a return moves the reader over the text that its answer tells. -/
lemma passes_step (s : Session) {c : Command} (hc : c ≠ .restore) (hallowed : c.Allowed s.reader) :
    s.reader.Passes (c.passed s.reader.rest (s.step c).1) (s.step c).2.reader := by
  cases c with
  | restore => exact absurd rfl hc
  | next =>
    cases hrest : s.reader.rest with
    | nil => simpa [step, next?, hrest, Command.passed] using passes_nil s.reader
    | cons a t =>
      simpa [step, next?, hrest, Command.passed, moveTo] using passes_take s.reader 1
  | take n => exact passes_take s.reader n
  | takeUntil p =>
    have h := passes_takeUntil s.reader p
    cases ht : (s.reader.takeUntil p).1 <;>
      simpa [step, ht, Answer.ofText?, Command.passed, moveTo] using h
  | takeUntilOrEnd p => exact passes_takeUntilOrEnd s.reader p
  | takeThrough p =>
    have h := passes_takeThrough s.reader p
    cases ht : (s.reader.takeThrough p).1 <;>
      simpa [step, ht, Answer.ofText?, Command.passed, moveTo] using h
  | takeUntilChar p =>
    have h := passes_takeUntilChar s.reader p
    cases ht : (s.reader.takeUntilChar p).1 <;>
      simpa [step, ht, Answer.ofText?, Command.passed, moveTo] using h
  | accept p =>
    have h := passes_accept s.reader p
    cases ht : (s.reader.accept p).1 <;> simpa [step, ht, Command.passed, moveTo] using h
  | skipWhile p limit =>
    cases limit with
    | none => exact ⟨List.takeWhile_prefix p, rfl⟩
    | some most =>
      refine ⟨(List.take_prefix most _).trans (List.takeWhile_prefix p), ?_⟩
      simp [step, skipWhile, runLength, Command.passed, moveTo, Nat.min_comm]
  | skipBlanks => exact ⟨List.takeWhile_prefix isBlank, rfl⟩
  | skip t => exact ⟨hallowed, rfl⟩
  | skipLineTail =>
    cases htail : s.reader.lineTail? with
    | none => simpa [step, htail, Command.passed] using passes_nil s.reader
    | some t => simpa [step, htail, Command.passed, moveTo] using passes_skip_lineTail? htail
  | _ => exact passes_nil s.reader

/-- The answer to a command can be told from what lies before the place and behind it. -/
lemma answers_step (s : Session) (c : Command) :
    c.Answers s.reader.consumed.reverse s.reader.rest (s.step c).1 := by
  cases c with
  | sliceFrom start =>
    rw [Command.Answers, Text.byteSize_reverse]
    rfl
  | startsWith p => exact congrArg Answer.flag (startsWith_eq s.reader p)
  | next =>
    cases hrest : s.reader.rest <;>
      simp [Command.Answers, step, next?, hrest, Answer.ofText?]
  | takeUntil p => exact ⟨_, finds_takeUntil s.reader p, rfl⟩
  | takeUntilOrEnd p =>
    exact ⟨_, finds_takeUntil s.reader p, congrArg Answer.text (fst_takeUntilOrEnd s.reader p)⟩
  | takeThrough p =>
    exact ⟨_, finds_takeUntil s.reader p, congrArg Answer.ofText? (fst_takeThrough s.reader p)⟩
  | takeUntilChar q => exact ⟨_, findsChar_takeUntilChar s.reader q, rfl⟩
  | accept p =>
    exact congrArg Answer.flag ((fst_accept s.reader p).trans (startsWith_eq s.reader p))
  | skipWhile q limit =>
    cases limit <;> simp [Command.Answers, step, skipWhile, runLength, Nat.min_comm]
  | lineIndent =>
    rw [Command.Answers, List.reverse_reverse]
    rfl
  | skipLineTail =>
    rw [Command.Answers, ← Reader.lineTail?, step]
    cases s.reader.lineTail? <;> rfl
  | _ => rfl

lemma saved_step (s : Session) {c : Command} (hc : c ≠ .save) : (s.step c).2.saved = s.saved := by
  cases c with
  | save => exact absurd rfl hc
  | next => cases hrest : s.reader.rest <;> simp [step, next?, hrest, moveTo]
  | skipLineTail => cases htail : s.reader.lineTail? <;> simp [step, htail, moveTo]
  | _ => rfl

lemma step_of_reports (s : Session) {c : Command} (hc : c.reports = true) :
    (s.step c).2 = s := by
  cases c with
  | source | rest | slice | sliceFrom | peek | startsWith | lineIndent | lineTail => rfl
  | _ => cases hc

variable {source : Text} {s : Session}

/-- Both places of a session belong to the source. -/
def At (source : Text) (s : Session) : Prop := s.reader.At source ∧ s.saved.At source

/-- A command keeps both places, also one that skips what does not come next: it still moves
along the source. -/
lemma At.step (h : s.At source) (c : Command) : (s.step c).2.At source := by
  have hreader : (s.step c).2.reader.At source := by
    by_cases hc : c = .restore
    · subst hc
      exact h.2
    by_cases hallowed : c.Allowed s.reader
    · rw [(s.passes_step hc hallowed).2]
      exact h.1.advance _
    · cases c with
      | skip t => exact h.1.advance t.length
      | _ => exact absurd trivial hallowed
  refine ⟨hreader, ?_⟩
  by_cases hc : c = .save
  · subst hc
    exact h.1
  · rw [s.saved_step hc]
    exact h.2

lemma At.after (h : s.At source) (commands : List Command) : (s.after commands).At source := by
  induction commands generalizing s with
  | nil => exact h
  | cons c commands ih => exact ih (h.step c)

end Session
end Mustache.Reader
