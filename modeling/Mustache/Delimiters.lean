import Mustache.Text.Blank

/-! The pair of character sequences that bounds tags. A pair can be given as two sequences, as
two words of one text, or as the body of a directive inside a template; all three ways accept
only sequences that can be found again: not empty and free of blanks. -/
namespace Mustache

/-- The sequences that open and close tags. -/
structure Delimiters where
  opening : Text
  closing : Text
  deriving DecidableEq, Repr

namespace Delimiters

/-- A sequence that can bound tags: not empty and free of blanks. -/
def isMark (s : Text) : Bool := !s.isEmpty && !s.any isBlank

/-- Both sequences can bound tags. -/
def Valid (d : Delimiters) : Prop := isMark d.opening = true ∧ isMark d.closing = true

instance (d : Delimiters) : Decidable d.Valid :=
  inferInstanceAs (Decidable (_ ∧ _))

/-- Two braces on either side. -/
def braces : Delimiters := ⟨['\x7b', '\x7b'], ['\x7d', '\x7d']⟩

instance : Inhabited Delimiters := ⟨braces⟩

/-- Tags are bounded by double braces. -/
def isDefault (d : Delimiters) : Bool := d == braces

/-- The pair of two sequences, if both can bound tags. -/
def ofPair? (opening closing : Text) : Option Delimiters :=
  if isMark opening && isMark closing then some ⟨opening, closing⟩ else none

/-- The pair written as exactly two words. -/
def ofWords? (t : Text) : Option Delimiters :=
  match Text.words t with
  | [opening, closing] => ofPair? opening closing
  | _ => none

/-- The pair that a directive sets, where `content` is what stands between the sign `=` after
the opening sequence and the closing sequence. The new opening sequence is the first word; the
new closing sequence is what follows it up to the next `=`, blanks left out. What follows that
sign is ignored. -/
def ofDirective? (content : Text) : Option Delimiters :=
  let body := content.dropWhile isBlank
  let opening := body.takeWhile (!isBlank ·)
  let tail := body.dropWhile (!isBlank ·)
  if tail.contains '=' then
    ofPair? opening ((tail.takeWhile (· != '=')).filter (!isBlank ·))
  else none

/-- The two sequences with a space between them. -/
def display (d : Delimiters) : Text := d.opening ++ ' ' :: d.closing

theorem valid_braces : braces.Valid := by decide

theorem ofPair?_eq_some_iff {o c : Text} {d : Delimiters} :
    ofPair? o c = some d ↔ (⟨o, c⟩ : Delimiters) = d ∧ d.Valid := by
  constructor
  · intro h
    by_cases hv : (isMark o && isMark c) = true
    · rw [ofPair?, if_pos hv, Option.some.injEq] at h
      subst h
      exact ⟨rfl, by simpa [Valid] using hv⟩
    · rw [ofPair?, if_neg hv] at h
      cases h
  · rintro ⟨rfl, ho, hc⟩
    simp_all [ofPair?]

example : ofWords? " <%\t%> ".toList = some ⟨"<%".toList, "%>".toList⟩ := by decide

example : ofDirective? " <%  % > = x".toList = some ⟨"<%".toList, "%>".toList⟩ := by decide

example : ofDirective? "<%=".toList = none := by decide

end Delimiters
end Mustache
