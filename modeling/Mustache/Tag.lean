import Mustache.Failure
import Mustache.Reader
import Mustache.Token

/-! Single tags. A tag is read in two steps: first its outer form, from the opening sequence to
the closing one, then what it stands for. The first character that is not blank, the *sigil*,
decides the kind; any character that is no sign of its own begins the name of an escaped value. -/
namespace Mustache

/-- A tag as it stands in a template: its first character that is not blank, and what lies
between that character and the closing sequence. -/
structure Tag where
  sigil : Char
  content : Text
  deriving DecidableEq, Repr

namespace Tag

/-- Read the outer form of the tag whose opening sequence comes next, and report the place after
it. A tag that begins with an additional brace ends with one more brace. -/
def read (d : Delimiters) (r : Reader) : Except Failure (Tag × Reader) :=
  let inside := (r.skip d.opening).skipBlanks.2
  match inside.next? with
  | none => .error ⟨inside.position, .empty⟩
  | some (sigil, body) =>
    match body.takeUntil d.closing with
    | (none, stop) => .error ⟨stop.position, .unclosed⟩
    | (some content, found) =>
      let after := found.skip d.closing
      if sigil == '\x7b' then
        match after.accept ['\x7d'] with
        | (true, braced) => .ok (⟨sigil, content⟩, braced)
        | (false, stop) => .error ⟨stop.position, .missingBrace⟩
      else .ok (⟨sigil, content⟩, after)

/-- What a tag stands for, given the indentation of its line if it starts its line. Only a
directive without a proper pair stands for nothing. -/
def token? (tag : Tag) (indent : Option Text) : Option Token :=
  let name := Text.trim tag.content
  match tag.sigil with
  | '!' => some .comment
  | '#' => some (.block .plain name)
  | '^' => some (.block .inverted name)
  | '$' => some (.block .override name)
  | '<' => some (.block .parent name)
  | '/' => some (.block .closing name)
  | '>' => some (.inclusion name (indent.getD []))
  | '\x7b' => some (.unescaped name)
  | '&' => some (.unescaped name)
  | '=' => (Delimiters.ofDirective? tag.content).map .setDelimiters
  | sigil => some (.escaped (Text.trim (sigil :: tag.content)))

/-- A tag that is read leaves less to read: it has at least a sigil. -/
theorem length_rest_lt_of_read {d : Delimiters} {r after : Reader} {tag : Tag}
    (h : read d r = .ok (tag, after)) : after.rest.length < r.rest.length := by
  unfold read at h
  simp only at h
  split at h
  · cases h
  next sigil body hnext =>
    have hbody : body.rest.length < r.rest.length := by
      unfold Reader.next? at hnext
      split at hnext
      · cases hnext
      next c tail hrest =>
        simp only [Option.some.injEq, Prod.mk.injEq] at hnext
        obtain ⟨-, rfl⟩ := hnext
        have hle : ((r.skip d.opening).skipBlanks.2).rest.length ≤ r.rest.length := by
          simp only [Reader.skipBlanks, Reader.skipWhile, Reader.skip, Reader.rest_advance,
            List.length_drop]
          omega
        rw [Reader.rest_advance, List.length_drop]
        rw [hrest, List.length_cons] at hle ⊢
        omega
    split at h
    · cases h
    next content found htake =>
      have hfound : found.rest.length ≤ body.rest.length := by
        unfold Reader.takeUntil at htake
        split at htake
        · simp only [Prod.mk.injEq] at htake
          obtain ⟨-, rfl⟩ := htake
          simp [Reader.rest_advance]
        · cases htake
      have hafter : (found.skip d.closing).rest.length ≤ found.rest.length := by
        simp [Reader.skip, Reader.rest_advance]
      split at h
      · split at h
        next braced haccept =>
          have hbraced : braced.rest.length ≤ (found.skip d.closing).rest.length := by
            unfold Reader.accept at haccept
            split at haccept
            · simp only [Prod.mk.injEq, true_and] at haccept
              subst haccept
              simp [Reader.rest_advance]
            · cases haccept
          simp only [Except.ok.injEq, Prod.mk.injEq] at h
          obtain ⟨-, rfl⟩ := h
          omega
        · cases h
      · simp only [Except.ok.injEq, Prod.mk.injEq] at h
        obtain ⟨-, rfl⟩ := h
        omega

end Tag
end Mustache
