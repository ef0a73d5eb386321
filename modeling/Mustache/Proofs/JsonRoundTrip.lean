import Mustache.Json.Reader
import Mustache.Program.Run
import Mustache.Proofs.WrittenSymbols

/-! Values and lists of tokens are read back from their written form. The machine that builds
values is followed along the symbols of a value: from a state that wants a value it comes to the
state behind that value, with the same containers open around it. -/
namespace Mustache
namespace Json

namespace Expecting

/-- Taking these symbols leads from one state to another. -/
def Takes (start : Expecting) (symbols : List Symbol) (finish : Expecting) : Prop :=
  symbols.foldlM step start = some finish

variable {start middle finish : Expecting} {stack : List Frame}

lemma Takes.append {s t : List Symbol} (h : Takes start s middle) (h' : Takes middle t finish) :
    Takes start (s ++ t) finish := by
  rw [Takes, List.foldlM_append, h]
  exact h'

lemma Takes.cons {s : Symbol} {later : List Symbol} (hstep : step start s = some middle)
    (h : Takes middle later finish) : Takes start (s :: later) finish := by
  rw [Takes, List.foldlM_cons, hstep]
  exact h

/-- Reading the value leads behind it, whatever containers are open. -/
def TakesValue (v : Value) : Prop := ∀ stack, Takes (.value stack) v.symbols (.more v stack)

/-- The first item of an array is read as any value is: no value begins with a closing mark. -/
lemma Takes.firstItem {symbols : List Symbol} {v : Value} {later : List Frame}
    (h : Takes (.value (.array [] :: stack)) symbols (.more v later)) :
    Takes (.firstItem stack) symbols (.more v later) := by
  cases symbols with
  | nil => cases h
  | cons s symbols =>
    cases s with
    | closeArray => cases h
    | _ => exact h

/-- The items after the first and the end of the array. The item read last is still on its own and
joins the open array with the symbol behind it. -/
lemma takes_items {items : List Value} (h : ∀ item ∈ items, TakesValue item) (first : Value)
    (done : List Value) :
    Takes (.more first (.array done :: stack)) (itemsSymbols items ++ [.closeArray])
      (.more (.array (done.reverse ++ first :: items)) stack) := by
  induction items generalizing first done with
  | nil =>
    rw [← List.reverse_cons]
    rfl
  | cons item items ih =>
    obtain ⟨hitem, hitems⟩ := List.forall_mem_cons.1 h
    have hlater := ih hitems item (first :: done)
    rw [List.reverse_cons, List.append_assoc, List.singleton_append] at hlater
    rw [itemsSymbols, List.append_assoc]
    exact .cons rfl ((hitem _).append hlater)

/-- The fields after the first and the end of the object. -/
lemma takes_fields {fields : List (Codes × Value)} (h : ∀ field ∈ fields, TakesValue field.2)
    (key : Codes) (first : Value) (done : List (Codes × Value)) :
    Takes (.more first (.object done key :: stack)) (fieldsSymbols fields ++ [.closeObject])
      (.more (.object (done.reverse ++ (key, first) :: fields)) stack) := by
  induction fields generalizing key first done with
  | nil =>
    rw [← List.reverse_cons]
    rfl
  | cons field fields ih =>
    obtain ⟨name, value⟩ := field
    obtain ⟨hvalue, hvalues⟩ := List.forall_mem_cons.1 h
    have hlater := ih hvalues name value ((key, first) :: done)
    rw [List.reverse_cons, List.append_assoc, List.singleton_append] at hlater
    rw [fieldsSymbols, List.append_assoc]
    exact .cons rfl (.cons rfl (.cons rfl ((hvalue _).append hlater)))

lemma takesValue_of_writable {v : Value} (hv : v.Writable) : TakesValue v := by
  induction hv with
  | null => exact fun _ => rfl
  | bool b => exact fun _ => rfl
  | number _ => exact fun _ => rfl
  | string _ => exact fun _ => rfl
  | @array items _ ih =>
    intro stack
    cases items with
    | nil => rfl
    | cons item items =>
      obtain ⟨hitem, hitems⟩ := List.forall_mem_cons.1 ih
      rw [Value.symbols, List.append_assoc]
      exact .cons rfl ((hitem _).firstItem.append (takes_items hitems item []))
  | @object fields _ _ ih =>
    intro stack
    cases fields with
    | nil => rfl
    | cons field fields =>
      obtain ⟨key, value⟩ := field
      obtain ⟨hvalue, hvalues⟩ := List.forall_mem_cons.1 ih
      rw [Value.symbols, List.append_assoc]
      exact .cons rfl (.cons rfl (.cons rfl
        ((hvalue _).append (takes_fields hvalues key value []))))

end Expecting

/-- A written value is read back, with any spaces behind it. -/
theorem Value.read?_pretty {v : Value} (hv : v.Writable) {spaces : Text}
    (hspaces : ∀ c ∈ spaces, Symbol.isSpace c = true) :
    Value.read? (v.pretty ++ spaces) = some v := by
  have htakes : v.symbols.foldlM Expecting.step (.value []) = some (.more v []) :=
    Expecting.takesValue_of_writable hv []
  simp [Value.read?, Symbol.readAll?_pretty hv hspaces, htakes, Expecting.result?]

namespace Codes

lemma textFrom?_ofText (done t : Text) : textFrom? done (ofText t) = some (done.reverse ++ t) := by
  induction t generalizing done with
  | nil => simp [ofText, textFrom?]
  | cons c t ih =>
    have hvalid : c.toNat.isValidChar := c.valid
    cases t with
    | nil => simp [ofText, textFrom?, hvalid]
    | cons d t =>
      have hrest := ih (c :: done)
      rw [List.reverse_cons, List.append_assoc, List.singleton_append] at hrest
      rw [← hrest]
      simp [ofText, textFrom?, hvalid]

@[simp] lemma text?_ofText (t : Text) : text? (ofText t) = some t := textFrom?_ofText [] t

lemma writable_ofText (t : Text) : (ofText t).Writable := by
  intro n hn
  obtain ⟨c, -, rfl⟩ := List.mem_map.1 hn
  exact .inl c.valid

end Codes

@[simp] lemma Value.text?_ofText (t : Text) : (Value.ofText t).text? = some t :=
  Codes.text?_ofText t

lemma Value.Writable.ofText (t : Text) : (Value.ofText t).Writable :=
  .string (Codes.writable_ofText t)

end Json

open Json (Codes Value)

@[simp] lemma Kind.ofDataName?_dataName (k : Kind) : Kind.ofDataName? k.dataName = some k := by
  cases k with
  | block mark => cases mark <;> rfl
  | _ => rfl

/-- An object is writable if its fields are. -/
lemma writable_object_cons {key : Text} {value : Value} {fields : List (Codes × Value)}
    (hvalue : value.Writable) (h : (Value.object fields).Writable) :
    (Value.object ((Codes.ofText key, value) :: fields)).Writable := by
  cases h with
  | object hkeys hvalues =>
    exact .object (List.forall_mem_cons.2 ⟨Codes.writable_ofText key, hkeys⟩)
      (List.forall_mem_cons.2 ⟨hvalue, hvalues⟩)

lemma writable_object_nil : (Value.object []).Writable := .object nofun nofun

lemma writable_pairToJson (first second a b : Text) : (pairToJson first second a b).Writable :=
  writable_object_cons (.ofText a) (writable_object_cons (.ofText b) writable_object_nil)

lemma pairOfJson?_pairToJson {first second : Text} (h : first ≠ second) (a b : Text) :
    pairOfJson? first second (pairToJson first second a b) = some (a, b) := by
  simp [pairOfJson?, pairToJson, fieldsOfJson?, h.symm]

namespace Token

lemma inclusionParts_ne : inclusionParts.1 ≠ inclusionParts.2 := by decide

lemma pairParts_ne : pairParts.1 ≠ pairParts.2 := by decide

lemma ofPayload?_payload (t : Token) : ofPayload? t.kind t.payload = some t := by
  cases t with
  | inclusion name indentation =>
    simp [ofPayload?, kind, payload, pairOfJson?_pairToJson inclusionParts_ne]
  | setDelimiters pair => simp [ofPayload?, kind, payload, pairOfJson?_pairToJson pairParts_ne]
  | _ => simp [ofPayload?, kind, payload]

lemma writable_payload (t : Token) : t.payload.Writable := by
  cases t with
  | comment => exact .null
  | inclusion name indentation => exact writable_pairToJson _ _ _ _
  | setDelimiters pair => exact writable_pairToJson _ _ _ _
  | _ => exact .ofText _

/-- Only comments are written as a name alone. -/
lemma toJson_of_ne_comment {t : Token} (h : t ≠ .comment) :
    t.toJson = .object [(Codes.ofText t.kind.dataName, t.payload)] := by
  cases t with
  | comment => exact absurd rfl h
  | _ => rfl

lemma ofJson?_toJson (t : Token) : ofJson? t.toJson = some t := by
  by_cases h : t = .comment
  · subst h
    rfl
  · rw [toJson_of_ne_comment h]
    simp [ofJson?, ofPayload?_payload]

lemma writable_toJson (t : Token) : t.toJson.Writable := by
  by_cases h : t = .comment
  · subst h
    exact .ofText _
  · rw [toJson_of_ne_comment h]
    exact writable_object_cons t.writable_payload writable_object_nil

lemma mapM_ofJson?_toJson (tokens : List Token) :
    (tokens.map toJson).mapM ofJson? = some tokens := by
  induction tokens with
  | nil => rfl
  | cons t tokens ih => simp [ofJson?_toJson, ih]

end Token

/-- Printing tokens as data loses nothing: whatever their payloads hold, the printed text, its
final line feed included, is read back as the same list of tokens. -/
theorem listOfJson?_printTokens (path : Text) (d : Delimiters) (tokens : List Token) :
    Token.listOfJson? (Program.printTokens ⟨path, true, d⟩ tokens) = some tokens := by
  have hwritable : (Value.array (tokens.map Token.toJson)).Writable := by
    refine .array fun v hv => ?_
    obtain ⟨t, -, rfl⟩ := List.mem_map.1 hv
    exact t.writable_toJson
  have hread : Value.read? (Token.listToJson tokens ++ ['\n']) = _ :=
    Value.read?_pretty hwritable (List.forall_mem_singleton.2 rfl)
  rw [Program.printTokens, if_pos rfl, Token.listOfJson?, hread]
  exact Token.mapM_ofJson?_toJson tokens

end Mustache
