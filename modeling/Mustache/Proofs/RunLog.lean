import Mustache.Proofs.Lexed
import Mustache.Proofs.Place

/-! The log of a run. Every tag that a run reads leaves a group of records: where its opening
sequence is, its kind, whether it stands alone, and before that the change of pairs if it is a
directive. The groups follow each other as the tags do in the template, and only a run that comes
to the end of its template logs that it is complete. -/
namespace Mustache

/-- A tag in its template: what precedes it, the pair in effect, how it is spelled, and what
follows it. -/
structure PlacedTag where
  before : Text
  pair : Delimiters
  spelling : Spelling
  after : Text
  deriving DecidableEq, Repr

namespace PlacedTag

/-- The template that the tag is in. -/
def source (t : PlacedTag) : Text := t.before ++ t.spelling.text t.pair ++ t.after

/-- What the tag stands for. -/
def token (t : PlacedTag) : Token := t.spelling.token t.before.reverse

/-- Where the opening sequence of the tag is. -/
def place (t : PlacedTag) : Position := .ofText t.before

/-- The tag is of a kind that can stand alone, and it is alone on its line. -/
def alone (t : PlacedTag) : Bool := decide (StandsAlone t.token t.before.reverse t.after)

/-- What is logged of the tag: the change of pairs if it is a directive, and then the tag. -/
def records (t : PlacedTag) : List Record := Record.ofTag t.place t.pair t.token t.alone

end PlacedTag

namespace Record

end Record

namespace Cut

variable {d : Delimiters} {cut : Cut}

/-- The tags of a part of a template, where `before` precedes the part, newest first, and `ending`
follows it. -/
def placedFrom (ending : Text) (d : Delimiters) (before : Text) : Cut → List PlacedTag
  | .last _ => []
  | .tag gap s later =>
    let start := gap.reverse ++ before
    ⟨start.reverse, d, s, later.text (s.next d) ++ ending⟩ ::
      later.placedFrom ending (s.next d) ((s.text d).reverse ++ start)

/-- The tags of a template that ends behind the cut with `ending`. -/
def placed (d : Delimiters) (ending : Text) (cut : Cut) : List PlacedTag :=
  cut.placedFrom ending d []

end Cut

end Mustache
