import Mustache.Proofs.Progress

/-! Reading up to a pattern by a search among bytes. Whatever the search is, as long as it tells
the first offset at which the pattern's bytes occur, the reads stop between two characters and
give what a search among the characters gives: the shortest text in front of the pattern. -/
namespace Mustache

/-- A search among bytes that tells the first offset at which a pattern occurs, and nothing if it
occurs nowhere. -/
def FindsFirst (find : List UInt8 → List UInt8 → Option Nat) : Prop :=
  ∀ bytes p n, find bytes p = some n ↔ p <+: bytes.drop n ∧ ∀ m < n, ¬ p <+: bytes.drop m

/-- The text in front of an occurrence of a pattern is the shortest there is, and `v` follows that
occurrence. -/
def FirstSplit (p t u v : Text) : Prop :=
  t = u ++ p ++ v ∧ ∀ u' v', t = u' ++ p ++ v' → u.length ≤ u'.length

section Search

variable {α : Type} {p s u : List α} {n : Nat}

lemma FirstAfter.not_prefix_drop (hu : FirstAfter p u) (w : List α) {m : Nat} (hm : m < u.length) :
    ¬ p <+: (u ++ p ++ w).drop m := by
  have hback : FirstAfter p (u.drop m) := by
    rw [← List.take_append_drop m u] at hu
    exact hu.of_append
  have hne : u.drop m ≠ [] := by
    rw [ne_eq, List.drop_eq_nil_iff]
    omega
  rw [List.append_assoc, List.drop_append_of_le_length (by omega), ← List.append_assoc]
  exact hback.not_prefix hne w

/-- The search by counting places tells the first place at which the pattern occurs. -/
lemma firstIndex?_eq_some_iff [BEq α] [LawfulBEq α] :
    firstIndex? p s = some n ↔ p <+: s.drop n ∧ ∀ m < n, ¬ p <+: s.drop m := by
  have hfirst : ∀ {k}, firstIndex? p s = some k →
      p <+: s.drop k ∧ ∀ m < k, ¬ p <+: s.drop m := by
    intro k hk
    obtain ⟨u, w, rfl, rfl, hu⟩ := exists_of_firstIndex?_eq_some hk
    refine ⟨?_, fun m hm => hu.not_prefix_drop w hm⟩
    rw [List.append_assoc, List.drop_left]
    exact List.prefix_append p w
  refine ⟨hfirst, fun ⟨hn, hbefore⟩ => ?_⟩
  cases hfind : firstIndex? p s with
  | none =>
    have hin : p <:+: s := hn.isInfix.trans (List.drop_suffix n s).isInfix
    exact absurd hin (firstIndex?_eq_none_iff.1 hfind)
  | some k =>
    obtain ⟨hk, hless⟩ := hfirst hfind
    rcases Nat.lt_trichotomy k n with hlt | rfl | hlt
    · exact absurd hk (hbefore k hlt)
    · rfl
    · exact absurd hn (hless n hlt)

end Search

lemma findsFirst_firstIndex? : FindsFirst fun bytes p => firstIndex? p bytes :=
  fun _ _ _ => firstIndex?_eq_some_iff

/-- What a search tells is fixed: any two that tell the first offset are the same. -/
lemma FindsFirst.eq_firstIndex? {find : List UInt8 → List UInt8 → Option Nat}
    (h : FindsFirst find) : find = fun bytes p => firstIndex? p bytes := by
  funext bytes p
  apply Option.ext
  intro n
  rw [h bytes p n, firstIndex?_eq_some_iff]

lemma FirstAfter.firstSplit {p u : Text} (hu : FirstAfter p u) (v : Text) :
    FirstSplit p (u ++ p ++ v) u v := by
  refine ⟨rfl, fun u' v' h => ?_⟩
  by_contra hlt
  apply hu.not_prefix_drop v (Nat.lt_of_not_le hlt)
  rw [h, List.append_assoc, List.drop_left]
  exact List.prefix_append p v'

namespace Cursor

variable (find : List UInt8 → List UInt8 → Option Nat) (c : Cursor) (p : Text)

/-- Read up to the next occurrence of a pattern, which stays unread; a miss runs to the end. -/
def takeUntilBy : Checked (Option Text × Cursor) := do
  match find (Text.bytes (← c.rest)) p.bytes with
  | some n =>
    let (t, found) ← c.readTo (c.offset + n)
    return (some t, found)
  | none => return (none, ← c.toEnd)

/-- Read up to the next occurrence of a pattern, or everything that is left. -/
def takeUntilOrEndBy : Checked (Text × Cursor) := do
  match find (Text.bytes (← c.rest)) p.bytes with
  | some n => c.readTo (c.offset + n)
  | none => c.readTo (Text.byteSize c.source)

/-- Read up to the next occurrence of a pattern and move over the pattern as well. -/
def takeThroughBy : Checked (Option Text × Cursor) := do
  match ← c.takeUntilBy find p with
  | (some t, found) => return (some t, ← found.moveTo (found.offset + Text.byteSize p))
  | (none, stop) => return (none, stop)

variable {find}

lemma takeUntilBy_eq (h : FindsFirst find) : c.takeUntilBy find p = c.takeUntil p := by
  rw [h.eq_firstIndex?]
  rfl

lemma takeUntilOrEndBy_eq (h : FindsFirst find) :
    c.takeUntilOrEndBy find p = c.takeUntilOrEnd p := by
  rw [h.eq_firstIndex?]
  rfl

lemma takeThroughBy_eq (h : FindsFirst find) : c.takeThroughBy find p = c.takeThrough p := by
  rw [takeThroughBy, c.takeUntilBy_eq p h]
  rfl

end Cursor

namespace Reader

lemma advance_behind (a u w : Text) : (behind a (u ++ w)).advance u.length = behind (a ++ u) w := by
  rw [behind, behind, advance_advance, List.length_append, List.append_assoc]

lemma toEnd_behind (a b : Text) : (behind a b).toEnd = behind (a ++ b) [] := by
  have h := advance_behind a b []
  rw [List.append_nil] at h
  rw [toEnd, rest_behind, h]

section Found

variable {p u : Text} (hu : FirstAfter p u) (a v : Text)
include hu

lemma takeUntil_behind :
    (behind a (u ++ p ++ v)).takeUntil p = (some u, behind (a ++ u) (p ++ v)) := by
  rw [takeUntil_of_firstAfter (rest_behind _ _) hu, List.append_assoc, advance_behind]

lemma takeUntilOrEnd_behind :
    (behind a (u ++ p ++ v)).takeUntilOrEnd p = (u, behind (a ++ u) (p ++ v)) := by
  rw [Lexer.takeUntilOrEnd_of_firstAfter (rest_behind _ _) hu, List.append_assoc, advance_behind]

lemma takeThrough_behind :
    (behind a (u ++ p ++ v)).takeThrough p = (some u, behind (a ++ u ++ p) v) := by
  rw [takeThrough, takeUntil_behind hu]
  simp only [advance_behind]

end Found

section Missed

variable {p b : Text} (hp : ¬ p <:+: b) (a : Text)
include hp

lemma takeUntil_behind_of_not_infix :
    (behind a b).takeUntil p = (none, behind (a ++ b) []) := by
  rw [Reader.takeUntil_of_not_infix (by rwa [rest_behind]), toEnd_behind]

lemma takeUntilOrEnd_behind_of_not_infix :
    (behind a b).takeUntilOrEnd p = (b, behind (a ++ b) []) := by
  rw [Lexer.takeUntilOrEnd_of_not_infix (by rwa [rest_behind]), ← toEnd_behind, toEnd, rest_behind]

lemma takeThrough_behind_of_not_infix :
    (behind a b).takeThrough p = (none, behind (a ++ b) []) := by
  rw [takeThrough, takeUntil_behind_of_not_infix hp]

end Missed

end Reader

/-- A search among bytes agrees with a search among characters. From any place between two
characters, the reads do what they do over characters; they return the shortest text in front of
the pattern and stop behind that text, or behind the pattern, and if the pattern does not come
they stop at the end of the source. -/
theorem reads_by_bytes_agree {find : List UInt8 → List UInt8 → Option Nat} (hfind : FindsFirst find)
    (a b p : Text) :
    ((Cursor.behind a b).takeUntilBy find p =
        .ok (((Reader.behind a b).takeUntil p).1, ((Reader.behind a b).takeUntil p).2.cursor) ∧
      (Cursor.behind a b).takeUntilOrEndBy find p =
        .ok (((Reader.behind a b).takeUntilOrEnd p).1,
          ((Reader.behind a b).takeUntilOrEnd p).2.cursor) ∧
      (Cursor.behind a b).takeThroughBy find p =
        .ok (((Reader.behind a b).takeThrough p).1,
          ((Reader.behind a b).takeThrough p).2.cursor)) ∧
    ((∃ u v, b = u ++ p ++ v) → ∃ u v, FirstSplit p b u v ∧
      (Cursor.behind a b).takeUntilBy find p = .ok (some u, .behind (a ++ u) (p ++ v)) ∧
      (Cursor.behind a b).takeUntilOrEndBy find p = .ok (u, .behind (a ++ u) (p ++ v)) ∧
      (Cursor.behind a b).takeThroughBy find p = .ok (some u, .behind (a ++ u ++ p) v)) ∧
    ((∀ u v, b ≠ u ++ p ++ v) →
      (Cursor.behind a b).takeUntilBy find p = .ok (none, .behind (a ++ b) []) ∧
      (Cursor.behind a b).takeUntilOrEndBy find p = .ok (b, .behind (a ++ b) []) ∧
      (Cursor.behind a b).takeThroughBy find p = .ok (none, .behind (a ++ b) [])) := by
  have hcursor : ∀ x y, Cursor.behind x y = (Reader.behind x y).cursor :=
    fun x y => (Reader.cursor_behind x y).symm
  have hplace := Reader.at_behind a b
  rw [Cursor.takeUntilBy_eq _ _ hfind, Cursor.takeUntilOrEndBy_eq _ _ hfind,
    Cursor.takeThroughBy_eq _ _ hfind, hcursor, Reader.takeUntil_cursor hplace,
    Reader.takeUntilOrEnd_cursor hplace, Reader.takeThrough_cursor hplace]
  refine ⟨⟨rfl, rfl, rfl⟩, ?_, fun hno => ?_⟩
  · rintro ⟨u', v', hsplit⟩
    have hin : p <:+: b := ⟨u', v', hsplit.symm⟩
    obtain ⟨n, hn⟩ := Option.ne_none_iff_exists'.1 fun h => firstIndex?_eq_none_iff.1 h hin
    obtain ⟨u, v, rfl, -, hu⟩ := exists_of_firstIndex?_eq_some hn
    refine ⟨u, v, hu.firstSplit v, ?_⟩
    rw [Reader.takeUntil_behind hu, Reader.takeUntilOrEnd_behind hu, Reader.takeThrough_behind hu,
      hcursor, hcursor]
    exact ⟨rfl, rfl, rfl⟩
  · have hnot : ¬ p <:+: b := fun ⟨u, v, hsplit⟩ => hno u v hsplit.symm
    rw [Reader.takeUntil_behind_of_not_infix hnot, Reader.takeUntilOrEnd_behind_of_not_infix hnot,
      Reader.takeThrough_behind_of_not_infix hnot, hcursor]
    exact ⟨rfl, rfl, rfl⟩

/-- A byte of the pattern also ends the character before it, and is not taken for the pattern. -/
theorem reads_by_bytes_shared_byte :
    Text.bytes "é".toList = [0xC3, 0xA9] ∧ Text.bytes "©".toList = [0xC2, 0xA9] ∧
      (Cursor.behind "\n".toList "é©b".toList).takeThroughBy
          (fun bytes p => firstIndex? p bytes) "©".toList =
        .ok (some "é".toList, .behind "\né©".toList "b".toList) := by
  refine ⟨by decide, by decide, ?_⟩
  obtain ⟨u, v, ⟨hsplit, hshort⟩, -, -, hthrough⟩ :=
    (reads_by_bytes_agree findsFirst_firstIndex? "\n".toList "é©b".toList "©".toList).2.1
      ⟨"é".toList, "b".toList, rfl⟩
  have hlength : u.length ≤ 1 := hshort "é".toList "b".toList rfl
  obtain _ | ⟨c, _ | ⟨c', u⟩⟩ := u
  · simp at hsplit
  · obtain ⟨rfl, hrest⟩ := List.cons.inj hsplit
    obtain ⟨-, rfl⟩ := List.cons.inj hrest
    exact hthrough
  · simp at hlength

end Mustache
