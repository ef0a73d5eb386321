import Mustache.Token

/-! Where a template written from tokens needs line ends. A tag that stood alone on its line took
the line end away, so tokens do not tell whether one belongs after such a tag. What decides is the
next tag: an indented inclusion has to start a line to get its indentation back, while a tag that
follows indentation must not start a line that it would take away. -/
namespace Mustache.Layout

/-- What the tokens at a place say about starting a new line there. -/
inductive LineStart where
  /-- The next tag has to start a line. -/
  | required
  /-- A new line would take away the indentation before the next tag, or give it to an
  inclusion that has none. -/
  | forbidden
  | either
  deriving DecidableEq, Repr

/-- Tokens that, written right after a tag, leave only blanks up to the end of its line. -/
def lineEnds : List Token → Bool
  | [] => true
  | .text content :: later =>
    match content.dropWhile isLineBlank with
    | [] => later.isEmpty
    | c :: _ => c == '\n'
  | _ => false

/-- What a line start means to a tag right behind it, given the tokens after the tag and what
they say about a line start of their own. -/
def atTag (tag : Token) (later : List Token) (next : LineStart) : LineStart :=
  match tag with
  | .inclusion _ (_ :: _) => .required
  | _ =>
    if tag.canStandAlone && !lineEnds later && next == .required then .required else .either

/-- What a line start means to a tag that indentation separates from it. -/
def atIndented (gap : Text) : List Token → LineStart
  | .inclusion _ indentation :: _ =>
    if indentation.isEmpty then .forbidden
    else if gap == indentation then .required
    else .either
  | tag :: later => if tag.canStandAlone && lineEnds later then .forbidden else .either
  | [] => .either

/-- What a line start in front of a token means, given the tokens after it and what they say
about a line start of their own. -/
def lineStart (token : Token) (later : List Token) (next : LineStart) : LineStart :=
  match token with
  | .text content => if Text.isIndentation content then atIndented content later else .either
  | tag => atTag tag later next

/-- Extend the plan of `later` over the tokens before it, which are given last first. -/
def planOnto (later : List Token) (plan : List LineStart) : List Token → List LineStart
  | [] => plan
  | token :: earlier =>
    let here := lineStart token later (plan.headD .either)
    planOnto (token :: later) (here :: plan) earlier

/-- For every place in a list of tokens, the end included, what a line start there means. The
plan is made from the last place to the first. -/
def plan (tokens : List Token) : List LineStart := planOnto [] [.either] tokens.reverse

/-- A plan is extended over two stretches of tokens one after the other. -/
theorem planOnto_append (later : List Token) (p : List LineStart) (xs ys : List Token) :
    planOnto later p (xs ++ ys) = planOnto (xs.reverse ++ later) (planOnto later p xs) ys := by
  induction xs generalizing later p with
  | nil => rfl
  | cons token earlier ih =>
    simp only [List.cons_append, planOnto, ih, List.reverse_cons, List.append_assoc,
      List.nil_append]

@[simp] theorem plan_nil : plan [] = [.either] := rfl

/-- The plan of a longer list has one more entry in front, which the rest of the plan decides. -/
theorem plan_cons (token : Token) (later : List Token) :
    plan (token :: later) =
      lineStart token later ((plan later).headD .either) :: plan later := by
  simp only [plan, List.reverse_cons, planOnto_append, List.reverse_reverse, List.append_nil,
    planOnto]

example : plan [.comment, .inclusion ['p'] [' ']] = [.required, .required, .either] := by decide

example : plan [.text [' '], .comment] = [.forbidden, .either, .either] := by decide

end Mustache.Layout
