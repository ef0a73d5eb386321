import Mustache.Text.Decimal
import Mustache.Text.Position

/-! What can be wrong with a template: the defects of a single tag, and the place where reading
gave up on it. Every defect is worded as a missing end of the tag. -/
namespace Mustache

/-- The defects of a tag. -/
inductive Defect where
  /-- Only blanks follow the opening sequence. -/
  | empty
  /-- The closing sequence does not occur. -/
  | unclosed
  /-- A tag that began with an additional brace lacks the brace that matches it. -/
  | missingBrace
  /-- The content of a directive is not a pair of sequences. -/
  | badDirective
  deriving DecidableEq, Repr

/-- The wording of a defect. -/
def Defect.message (_ : Defect) : Text := "missing closing delimiter".toList

/-- Advice on how to mend a defect. -/
def Defect.help (_ : Defect) : Text :=
  ("close the tag with the current closing delimiter, or change delimiters with " ++
    "`\x7b\x7b=<open> <close>=\x7d\x7d`").toList

/-- A defect and the place where it was noticed. -/
structure Failure where
  position : Position
  defect : Defect
  deriving DecidableEq, Repr

/-- The place of a failure and the wording of its defect. -/
def Failure.message (f : Failure) : Text :=
  Text.ofNat f.position.line ++ ':' :: Text.ofNat f.position.column ++ ':' :: ' ' ::
    f.defect.message

example : Failure.message ⟨⟨2, 3⟩, .unclosed⟩ = "2:3: missing closing delimiter".toList := by
  decide

end Mustache
