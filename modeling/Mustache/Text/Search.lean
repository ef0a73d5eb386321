/-! Searching a list for a contiguous pattern. The search is generic in the alphabet, so one
definition serves characters and bytes alike. -/
namespace Mustache

variable {α : Type} [BEq α]

/-- Search from the `n`-th place on, where `s` is what stands there. -/
def firstIndexFrom? (p : List α) (n : Nat) : List α → Option Nat
  | [] => if p.isEmpty then some n else none
  | c :: rest => if p.isPrefixOf (c :: rest) then some n else firstIndexFrom? p (n + 1) rest

/-- The number of elements before the first occurrence of `p` in `s`; an empty pattern occurs
at once. -/
def firstIndex? (p s : List α) : Option Nat := firstIndexFrom? p 0 s

/-- The count of places already passed only shifts the answer. -/
theorem firstIndexFrom?_eq_map (p s : List α) (n : Nat) :
    firstIndexFrom? p n s = (firstIndex? p s).map (· + n) := by
  induction s generalizing n with
  | nil => by_cases h : p.isEmpty <;> simp [firstIndex?, firstIndexFrom?, h]
  | cons c rest ih =>
    by_cases h : p.isPrefixOf (c :: rest)
    · simp [firstIndex?, firstIndexFrom?, h]
    · simp only [firstIndex?, firstIndexFrom?, h, if_false, Bool.false_eq_true]
      rw [ih, ih 1, Option.map_map]
      congr 1
      funext k
      simp only [Function.comp_apply]
      omega

/-- Searching a longer list looks at its first place and then at the others. -/
theorem firstIndex?_cons (p : List α) (c : α) (rest : List α) :
    firstIndex? p (c :: rest) =
      if p.isPrefixOf (c :: rest) then some 0 else (firstIndex? p rest).map (· + 1) := by
  rw [firstIndex?, firstIndexFrom?, firstIndexFrom?_eq_map]

/-- A pattern that is not at the front does not occur at the first place. -/
theorem firstIndex?_pos {p s : List α} {n : Nat} (hp : p.isPrefixOf s = false)
    (h : firstIndex? p s = some n) : 0 < n := by
  cases s with
  | nil => cases p <;> simp_all [firstIndex?, firstIndexFrom?, List.isPrefixOf]
  | cons c rest =>
    rw [firstIndex?_cons, hp] at h
    obtain ⟨m, _, rfl⟩ := Option.map_eq_some_iff.1 h
    omega

example : firstIndex? "ab".toList "aab".toList = some 1 := by decide

example : firstIndex? "".toList "xy".toList = some 0 := by decide

end Mustache
