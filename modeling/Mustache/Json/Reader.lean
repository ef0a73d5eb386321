import Mustache.Json.Symbol

/-! Reading values. A machine takes the symbols of a text one at a time and keeps the containers
that are still open on a stack, so depth is bounded by nothing but the text. -/
namespace Mustache.Json

/-- A container that is still open: what it holds so far, newest first, and the key of the field
that is being read. -/
inductive Frame where
  | array (done : List Value)
  | object (done : List (Codes × Value)) (key : Codes)
  deriving Repr

/-- What may come next, and the containers that are open around it. -/
inductive Expecting where
  /-- A value. -/
  | value (stack : List Frame)
  /-- The first item of an array, or its end. -/
  | firstItem (stack : List Frame)
  /-- The first key of an object, or its end. -/
  | firstKey (stack : List Frame)
  /-- A key of an object that has fields already. -/
  | key (done : List (Codes × Value)) (stack : List Frame)
  /-- The colon after a key. -/
  | colon (done : List (Codes × Value)) (key : Codes) (stack : List Frame)
  /-- What follows a value: more of its container, the container's end, or nothing. -/
  | more (value : Value) (stack : List Frame)
  deriving Repr

namespace Expecting

/-- Take a symbol where a value has to be. -/
def takeValue (stack : List Frame) : Symbol → Option Expecting
  | .null => some (.more .null stack)
  | .bool b => some (.more (.bool b) stack)
  | .number literal => some (.more (.number literal) stack)
  | .string codes => some (.more (.string codes) stack)
  | .openArray => some (.firstItem stack)
  | .openObject => some (.firstKey stack)
  | _ => none

/-- Take a symbol after a value. -/
def takeMore (v : Value) : List Frame → Symbol → Option Expecting
  | .array done :: stack, .comma => some (.value (.array (v :: done) :: stack))
  | .array done :: stack, .closeArray => some (.more (.array (v :: done).reverse) stack)
  | .object done name :: stack, .comma => some (.key ((name, v) :: done) stack)
  | .object done name :: stack, .closeObject =>
    some (.more (.object ((name, v) :: done).reverse) stack)
  | _, _ => none

/-- Take one symbol. -/
def step : Expecting → Symbol → Option Expecting
  | .value stack, s => takeValue stack s
  | .firstItem stack, .closeArray => some (.more (.array []) stack)
  | .firstItem stack, s => takeValue (.array [] :: stack) s
  | .firstKey stack, .closeObject => some (.more (.object []) stack)
  | .firstKey stack, .string name => some (.colon [] name stack)
  | .key done stack, .string name => some (.colon done name stack)
  | .colon done name stack, .colon => some (.value (.object done name :: stack))
  | .more v stack, s => takeMore v stack s
  | _, _ => none

/-- The value that has been read, if nothing is missing. -/
def result? : Expecting → Option Value
  | .more v [] => some v
  | _ => none

end Expecting

/-- The value that a text is, with spaces around its symbols and nothing after it. -/
def Value.read? (t : Text) : Option Value := do
  let symbols ← Symbol.readAll? t
  let state ← symbols.foldlM Expecting.step (.value [])
  state.result?

end Mustache.Json
