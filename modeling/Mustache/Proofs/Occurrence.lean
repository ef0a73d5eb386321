import Mathlib.Data.List.TakeWhile
import Mustache.Delimiters
import Mustache.Text.Search

/-! First occurrences of a pattern. The search by counting places is tied to a statement about
splittings of a list, and a pattern that avoids a character is shown never to span it. -/
namespace Mustache

variable {α : Type}

/-- The first occurrence of `p` in `u ++ p` is the one behind `u`: nothing follows any
occurrence that there is. -/
def FirstAfter (p u : List α) : Prop := ∀ v w, u ++ p = v ++ p ++ w → w = []

@[simp] lemma firstAfter_nil (p : List α) : FirstAfter p [] := by
  intro v w h
  have hlen := congrArg List.length h
  simp only [List.nil_append, List.length_append] at hlen
  exact List.length_eq_zero_iff.1 (by omega)

lemma firstAfter_cons {p u : List α} {c : α} :
    FirstAfter p (c :: u) ↔ ¬ p <+: c :: (u ++ p) ∧ FirstAfter p u := by
  constructor
  · intro h
    constructor
    · rintro ⟨w, hw⟩
      have hnil := h [] w hw.symm
      have hlen := congrArg List.length hw
      simp only [hnil, List.append_nil, List.length_cons, List.length_append] at hlen
      omega
    · intro v w hv
      exact h (c :: v) w (by simp [hv])
  · rintro ⟨hfirst, hrest⟩ v w hv
    cases v with
    | nil => exact absurd ⟨w, hv.symm⟩ hfirst
    | cons a v =>
      simp only [List.cons_append, List.cons.injEq] at hv
      exact hrest v w hv.2

lemma FirstAfter.of_append {p u v : List α} (h : FirstAfter p (u ++ v)) : FirstAfter p v := by
  intro x w hx
  exact h (u ++ x) w (by simp [hx])

lemma FirstAfter.not_infix {p u : List α} (hp : p ≠ []) (h : FirstAfter p u) : ¬ p <:+: u := by
  rintro ⟨v, w, rfl⟩
  have hnil := h v (w ++ p) (by simp)
  exact hp (List.append_eq_nil_iff.1 hnil).2

lemma FirstAfter.not_prefix {p u : List α} (h : FirstAfter p u) (hu : u ≠ []) (w : List α) :
    ¬ p <+: u ++ p ++ w := by
  cases u with
  | nil => exact absurd rfl hu
  | cons c u =>
    intro hp
    have hlong : p <+: c :: (u ++ p) :=
      List.prefix_of_prefix_length_le hp (by simp) (by simp; omega)
    exact (firstAfter_cons.1 h).1 hlong

section Search

variable [BEq α] [LawfulBEq α]

lemma firstIndex?_eq_none_iff {p s : List α} : firstIndex? p s = none ↔ ¬ p <:+: s := by
  induction s with
  | nil => cases p <;> simp [firstIndex?, firstIndexFrom?]
  | cons c rest ih =>
    rw [firstIndex?_cons, List.infix_cons_iff, not_or, ← ih, ← List.isPrefixOf_iff_prefix]
    by_cases h : p.isPrefixOf (c :: rest) = true <;> simp [h]

/-- Searching what starts with a known first occurrence finds that one, whatever follows it. -/
lemma firstIndex?_append {p u : List α} (h : FirstAfter p u) (w : List α) :
    firstIndex? p (u ++ p ++ w) = some u.length := by
  induction u with
  | nil =>
    cases p with
    | nil => cases w <;> simp [firstIndex?, firstIndexFrom?]
    | cons c p => simp [firstIndex?_cons]
  | cons c u ih =>
    have hno : p.isPrefixOf (c :: (u ++ p ++ w)) = false := by
      rw [Bool.eq_false_iff, ne_eq, List.isPrefixOf_iff_prefix]
      exact h.not_prefix (by simp) w
    rw [List.cons_append, List.cons_append, firstIndex?_cons, hno, ih (firstAfter_cons.1 h).2]
    rfl

/-- A place found by the search splits the list in front of a first occurrence. -/
lemma exists_of_firstIndex?_eq_some {p s : List α} {n : Nat} (h : firstIndex? p s = some n) :
    ∃ u w, s = u ++ p ++ w ∧ u.length = n ∧ FirstAfter p u := by
  induction s generalizing n with
  | nil =>
    cases p with
    | nil => exact ⟨[], [], by simpa [firstIndex?, firstIndexFrom?] using h⟩
    | cons c p => simp [firstIndex?, firstIndexFrom?] at h
  | cons c rest ih =>
    rw [firstIndex?_cons] at h
    by_cases hp : p.isPrefixOf (c :: rest) = true
    · rw [if_pos hp, Option.some.injEq] at h
      obtain ⟨w, hw⟩ := List.isPrefixOf_iff_prefix.1 hp
      exact ⟨[], w, by simpa using hw.symm, by simpa using h, firstAfter_nil p⟩
    · rw [if_neg hp] at h
      obtain ⟨m, hm, rfl⟩ := Option.map_eq_some_iff.1 h
      obtain ⟨u, w, rfl, rfl, hu⟩ := ih hm
      refine ⟨c :: u, w, by simp, by simp, firstAfter_cons.2 ⟨?_, hu⟩⟩
      intro hpre
      apply hp
      rw [List.isPrefixOf_iff_prefix]
      exact hpre.trans (by simp)

lemma firstIndex?_append_self_iff {p u : List α} :
    firstIndex? p (u ++ p) = some u.length ↔ FirstAfter p u := by
  constructor
  · intro h
    obtain ⟨v, w, hv, hlen, hfirst⟩ := exists_of_firstIndex?_eq_some h
    have hvu : v = u := by
      rw [List.append_assoc] at hv
      exact (List.append_inj hv hlen.symm).1.symm
    exact hvu ▸ hfirst
  · intro h
    simpa using firstIndex?_append h []

instance (p u : List α) : Decidable (FirstAfter p u) :=
  decidable_of_iff _ firstIndex?_append_self_iff

end Search

section Separators

variable {p u v : List α} {c : α}

lemma prefix_append_cons_iff (hc : c ∉ p) : p <+: u ++ c :: v ↔ p <+: u := by
  constructor
  · intro h
    have hpre : u ++ [c] <+: u ++ c :: v := ⟨v, by simp⟩
    rcases List.prefix_or_prefix_of_prefix h hpre with h | h
    · rcases List.prefix_concat_iff.1 h with h | h
      · exact absurd (h ▸ by simp : c ∈ p) hc
      · exact h
    · exact absurd (h.subset (by simp)) hc
  · intro h
    exact h.trans (List.prefix_append u _)

/-- A pattern that avoids a character lies on one side of it. -/
lemma infix_append_cons_iff (hc : c ∉ p) : p <:+: u ++ c :: v ↔ p <:+: u ∨ p <:+: v := by
  induction u with
  | nil =>
    have h := prefix_append_cons_iff (u := []) (v := v) hc
    simp only [List.nil_append] at h
    rw [List.nil_append, List.infix_cons_iff, h, List.infix_nil, List.prefix_nil]
  | cons a u ih =>
    rw [List.cons_append, List.infix_cons_iff, ih, List.infix_cons_iff, ← or_assoc]
    have h := prefix_append_cons_iff (u := a :: u) (v := v) hc
    rw [List.cons_append] at h
    rw [h]

/-- A character that the pattern avoids resets the search for it. -/
lemma firstAfter_append_cons_iff (hc : c ∉ p) :
    FirstAfter p (u ++ c :: v) ↔ ¬ p <:+: u ∧ FirstAfter p v := by
  induction u with
  | nil =>
    have h := prefix_append_cons_iff (u := []) (v := v ++ p) hc
    simp only [List.nil_append] at h
    rw [List.nil_append, firstAfter_cons, h, List.infix_nil, List.prefix_nil]
  | cons a u ih =>
    have h := prefix_append_cons_iff (u := a :: u) (v := v ++ p) hc
    rw [List.cons_append, firstAfter_cons, ih, List.append_assoc, List.cons_append,
      ← List.cons_append, h, List.infix_cons_iff, not_or, and_assoc]

lemma FirstAfter.cons (hp : p ≠ []) (hc : c ∉ p) (h : FirstAfter p v) :
    FirstAfter p (c :: v) := by
  have hcons := firstAfter_append_cons_iff (u := []) (v := v) hc
  simp only [List.nil_append, List.infix_nil] at hcons
  exact hcons.2 ⟨hp, h⟩

end Separators

section Marks

variable {p u v : Text} {c : Char}

lemma ne_nil_of_isMark (hp : Delimiters.isMark p = true) : p ≠ [] := by
  rintro rfl
  cases hp

/-- Sequences that bound tags hold no blanks. -/
lemma notMem_of_isMark (hp : Delimiters.isMark p = true) (hc : isBlank c = true) : c ∉ p := by
  intro hmem
  simp only [Delimiters.isMark, Bool.and_eq_true, Bool.not_eq_true', List.any_eq_false] at hp
  exact hp.2 c hmem hc

lemma exists_cons_of_isMark (hp : Delimiters.isMark p = true) :
    ∃ c t, p = c :: t ∧ isBlank c = false := by
  cases p with
  | nil => cases hp
  | cons c t =>
    refine ⟨c, t, rfl, ?_⟩
    by_contra hc
    exact notMem_of_isMark hp (by simpa using hc) (by simp)

lemma exists_concat_of_isMark (hp : Delimiters.isMark p = true) :
    ∃ t c, p = t ++ [c] ∧ isBlank c = false := by
  have hne := ne_nil_of_isMark hp
  refine ⟨p.dropLast, p.getLast hne, (List.dropLast_concat_getLast hne).symm, ?_⟩
  by_contra hc
  exact notMem_of_isMark hp (by simpa using hc) (List.getLast_mem hne)

lemma firstAfter_of_blanks (hp : Delimiters.isMark p = true) (hv : ∀ c ∈ v, isBlank c = true) :
    FirstAfter p v := by
  induction v with
  | nil => exact firstAfter_nil p
  | cons c v ih =>
    exact (ih fun a ha => hv a (by simp [ha])).cons (ne_nil_of_isMark hp)
      (notMem_of_isMark hp (hv c (by simp)))

/-- Behind a text that ends with a blank, a mark is found first if the text does not hold it. -/
lemma firstAfter_append_blanks (hp : Delimiters.isMark p = true) (hu : ¬ p <:+: u)
    (hne : v ≠ []) (hv : ∀ c ∈ v, isBlank c = true) : FirstAfter p (u ++ v) := by
  cases v with
  | nil => exact absurd rfl hne
  | cons c v =>
    rw [firstAfter_append_cons_iff (notMem_of_isMark hp (hv c (by simp)))]
    exact ⟨hu, firstAfter_of_blanks hp fun a ha => hv a (by simp [ha])⟩

end Marks

end Mustache
