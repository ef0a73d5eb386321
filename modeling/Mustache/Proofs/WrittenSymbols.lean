import Mustache.Json.Symbol
import Mustache.Json.Writer
import Mustache.Proofs.DirectiveParts

/-! The symbols of a written value. A writer puts characters behind what it has written, newest
first, and a reader splits the whole text into symbols. The two are tied by what the text written
so far is read as: `ReadsFirmly` holds where the text has just ended with a mark or a space, so
that anything may follow, and `ReadsAs` where it may end with a word or a number, which more
letters or digits would prolong. -/
namespace Mustache.Json

/-- Every code is a character, or small enough for four hexadecimal digits. -/
def Codes.Writable (codes : Codes) : Prop := ∀ n ∈ codes, n.isValidChar ∨ n < 0x10000

/-- The value can be written so that it can be read again: its numbers are numbers and its codes
can be written. -/
inductive Value.Writable : Value → Prop
  | null : Writable .null
  | bool (b : Bool) : Writable (.bool b)
  | number {literal : Text} (h : Symbol.isNumber literal = true) : Writable (.number literal)
  | string {codes : Codes} (h : codes.Writable) : Writable (.string codes)
  | array {items : List Value} (h : ∀ item ∈ items, Writable item) : Writable (.array items)
  | object {fields : List (Codes × Value)} (hkeys : ∀ field ∈ fields, field.1.Writable)
      (h : ∀ field ∈ fields, Writable field.2) : Writable (.object fields)

mutual

/-- The symbols that a value is made of. -/
def Value.symbols : Value → List Symbol
  | .null => [.null]
  | .bool b => [.bool b]
  | .number literal => [.number literal]
  | .string codes => [.string codes]
  | .array [] => [.openArray, .closeArray]
  | .array (item :: items) =>
    .openArray :: item.symbols ++ itemsSymbols items ++ [.closeArray]
  | .object [] => [.openObject, .closeObject]
  | .object ((key, value) :: fields) =>
    .openObject :: .string key :: .colon :: value.symbols ++ fieldsSymbols fields ++ [.closeObject]

/-- The symbols of the items after the first. -/
def itemsSymbols : List Value → List Symbol
  | [] => []
  | item :: items => .comma :: item.symbols ++ itemsSymbols items

/-- The symbols of the fields after the first. -/
def fieldsSymbols : List (Codes × Value) → List Symbol
  | [] => []
  | (key, value) :: fields =>
    .comma :: .string key :: .colon :: value.symbols ++ fieldsSymbols fields

end

namespace Symbol

section strings

lemma hexValue?_digitChar : ∀ n < 16, hexValue? (Nat.digitChar n) = some n := by decide

lemma hexCode?_hexDigit {n : Nat} (h : n < 0x10000) :
    hexCode? (hexDigit (n / 0x1000)) (hexDigit (n / 0x100)) (hexDigit (n / 0x10)) (hexDigit n) =
      some n := by
  have hdigit (m : Nat) : hexValue? (hexDigit m) = some (m % 16) :=
    hexValue?_digitChar _ (Nat.mod_lt m (by decide))
  simp only [hexCode?, hdigit, Option.bind_eq_bind, Option.bind_some, Option.pure_def,
    Option.some.injEq]
  omega

lemma unescape?_of_shortEscape? {n : Nat} {c : Char} (h : shortEscape? n = some c) :
    unescape? c = some n ∧ c ≠ 'u' := by
  unfold shortEscape? at h
  split at h <;> cases h <;> decide

lemma readString?_short {c : Char} {n : Nat} (hc : c ≠ 'u') (h : unescape? c = some n)
    (codes : Codes) (rest : Text) :
    readString? codes ('\\' :: c :: rest) = readString? (n :: codes) rest := by
  rw [readString?]
  · rw [h]
  · rintro a b d e after heq -
    exact hc heq

/-- A character that needs no escape: the two that end or escape have short ones. -/
lemma readString?_plain {n : Nat} (hshort : shortEscape? n = none) (hle : 0x20 ≤ n)
    (hvalid : n.isValidChar) (codes : Codes) (rest : Text) :
    readString? codes (Char.ofNat n :: rest) = readString? (n :: codes) rest := by
  have hnat : (Char.ofNat n).toNat = n := by
    rw [Char.ofNat, dif_pos hvalid]
    rfl
  have hne {c : Char} (hc : shortEscape? c.toNat ≠ none) : Char.ofNat n ≠ c := by
    rintro rfl
    exact hc (hnat.symm ▸ hshort)
  have hquote : Char.ofNat n ≠ '"' := hne (by decide)
  have hslash : Char.ofNat n ≠ '\\' := hne (by decide)
  rw [readString?, if_neg (by simp [hslash, hnat, hle]), hnat]
  all_goals simp_all

lemma readString?_long {n : Nat} (hn : n < 0x10000) (codes : Codes) (rest : Text) :
    readString? codes (longEscape n ++ rest) = readString? (n :: codes) rest := by
  simp [longEscape, readString?, hexCode?_hexDigit hn]

/-- Reading one code as it is written. -/
lemma readString?_escape {n : Nat} (h : n.isValidChar ∨ n < 0x10000) (codes : Codes)
    (rest : Text) : readString? codes (escape n ++ rest) = readString? (n :: codes) rest := by
  unfold escape
  split
  next c hshort =>
    obtain ⟨hn, hc⟩ := unescape?_of_shortEscape? hshort
    exact readString?_short hc hn codes rest
  next hshort =>
    split
    next hplain =>
      obtain ⟨hle, hvalid⟩ : 0x20 ≤ n ∧ n.isValidChar := by simpa using hplain
      exact readString?_plain hshort hle hvalid codes rest
    next hlong =>
      have hn : n < 0x10000 := by
        rw [Bool.and_eq_true, decide_eq_true_eq, decide_eq_true_eq] at hlong
        omega
      exact readString?_long hn codes rest

/-- Reading a string from behind its opening mark. -/
lemma readString?_flatMap_escape {codes : Codes} (h : codes.Writable) (done : Codes)
    (rest : Text) :
    readString? done (codes.flatMap escape ++ '"' :: rest) =
      some (done.reverse ++ codes, rest) := by
  induction codes generalizing done with
  | nil => simp [readString?]
  | cons n codes ih =>
    have ⟨hn, hcodes⟩ := List.forall_mem_cons.1 h
    rw [List.flatMap_cons, List.append_assoc, readString?_escape hn, ih hcodes]
    simp

lemma putString_eq_append (codes : Codes) (written : Text) :
    putString codes written = put ('"' :: codes.flatMap escape ++ ['"']) written := by
  have hput (w : Text) :
      codes.foldl (fun w n => put (escape n) w) w = (codes.flatMap escape).reverse ++ w := by
    induction codes generalizing w with
    | nil => rfl
    | cons n codes ih =>
      rw [List.foldl_cons, ih, put, List.flatMap_cons, List.reverse_append, List.append_assoc]
  rw [putString, hput]
  simp only [put, List.reverse_append, List.reverse_cons, List.reverse_nil, List.nil_append,
    List.cons_append, List.append_assoc]

end strings

section numbers

lemma isNumberChar_of_isDigit {c : Char} (h : c.isDigit = true) : isNumberChar c = true := by
  simp [isNumberChar, h]

/-- What follows digits is read on from the same place as the digits themselves. -/
lemma dropWhile_afterDigits? {t rest : Text} (h : afterDigits? t = some rest) :
    t.dropWhile isNumberChar = rest.dropWhile isNumberChar := by
  unfold afterDigits? at h
  split at h
  next c u =>
    split at h
    next hc =>
      cases h
      rw [List.dropWhile_cons_of_pos (isNumberChar_of_isDigit hc)]
      nth_rewrite 1 [← List.takeWhile_append_dropWhile (p := Char.isDigit) (l := u)]
      exact List.dropWhile_append_of_pos fun c hc =>
        isNumberChar_of_isDigit (List.mem_takeWhile_imp hc)
    next => cases h
  next => cases h

lemma dropWhile_afterWhole? {t rest : Text} (h : afterWhole? t = some rest) :
    t.dropWhile isNumberChar = rest.dropWhile isNumberChar := by
  unfold afterWhole? at h
  split at h
  · cases h
    rfl
  · exact dropWhile_afterDigits? h

lemma dropWhile_afterFraction? {t rest : Text} (h : afterFraction? t = some rest) :
    t.dropWhile isNumberChar = rest.dropWhile isNumberChar := by
  unfold afterFraction? at h
  split at h
  · rw [← dropWhile_afterDigits? h]
    rfl
  · cases h
    rfl

lemma dropWhile_afterExponentSign (t : Text) :
    t.dropWhile isNumberChar = (afterExponentSign t).dropWhile isNumberChar := by
  unfold afterExponentSign
  split <;> rfl

lemma dropWhile_afterExponent? {t rest : Text} (h : afterExponent? t = some rest) :
    t.dropWhile isNumberChar = rest.dropWhile isNumberChar := by
  unfold afterExponent? at h
  split at h
  · rw [← dropWhile_afterDigits? h, ← dropWhile_afterExponentSign]
    rfl
  · rw [← dropWhile_afterDigits? h, ← dropWhile_afterExponentSign]
    rfl
  · cases h
    rfl

lemma dropWhile_afterMinus (t : Text) :
    t.dropWhile isNumberChar = (afterMinus t).dropWhile isNumberChar := by
  unfold afterMinus
  split <;> rfl

/-- Numbers are made of the characters of numbers. -/
lemma isNumberChar_of_isNumber {t : Text} (h : isNumber t = true) :
    ∀ c ∈ t, isNumberChar c = true := by
  simp only [isNumber, beq_iff_eq, Option.bind_eq_bind, Option.bind_eq_some_iff] at h
  obtain ⟨whole, hwhole, fraction, hfraction, hexponent⟩ := h
  rw [← List.dropWhile_eq_nil_iff, dropWhile_afterMinus, dropWhile_afterWhole? hwhole,
    dropWhile_afterFraction? hfraction, dropWhile_afterExponent? hexponent]
  rfl

end numbers

section texts

lemma readAllFrom?_eq (done : List Symbol) (t : Text) :
    readAllFrom? done t =
      match t.dropWhile isSpace with
      | [] => some done.reverse
      | c :: rest =>
        match read? c rest with
        | some (s, after) => readAllFrom? (s :: done) after
        | none => none := by
  conv_lhs => unfold readAllFrom?
  split
  next h => rw [h]
  next c rest h =>
    rw [h]
    split
    next s after hread => simp only [hread]
    next hread => simp only [hread]

lemma readAllFrom?_spaces {spaces : Text} (h : ∀ c ∈ spaces, isSpace c = true)
    (done : List Symbol) (rest : Text) :
    readAllFrom? done (spaces ++ rest) = readAllFrom? done rest := by
  rw [readAllFrom?_eq, List.dropWhile_append_of_pos h, ← readAllFrom?_eq]

lemma readAllFrom?_of_read? {c : Char} {rest after : Text} {s : Symbol} (hc : isSpace c = false)
    (h : read? c rest = some (s, after)) (done : List Symbol) :
    readAllFrom? done (c :: rest) = readAllFrom? (s :: done) after := by
  rw [readAllFrom?_eq, List.dropWhile_cons_of_neg (by simp [hc])]
  simp only [h]

/-- What may follow a word or a number without being taken for more of it. -/
def Stops (rest : Text) : Prop := ∀ c ∈ rest.head?, isNumberChar c = false ∧ c.isAlpha = false

/-- The text written so far, newest character first, is read as these symbols in front of
everything that may follow it. -/
def ReadsBefore (mayFollow : Text → Prop) (written : Text) (symbols : List Symbol) : Prop :=
  ∀ rest, mayFollow rest →
    readAllFrom? [] (written.reverse ++ rest) = readAllFrom? symbols.reverse rest

/-- The text ends with a mark or a space, so that anything may follow. -/
abbrev ReadsFirmly : Text → List Symbol → Prop := ReadsBefore fun _ => True

/-- The text may end with a word or a number. -/
abbrev ReadsAs : Text → List Symbol → Prop := ReadsBefore Stops

variable {written : Text} {symbols : List Symbol}

lemma readsFirmly_nil : ReadsFirmly [] [] := fun _ _ => rfl

lemma ReadsFirmly.readsAs (h : ReadsFirmly written symbols) : ReadsAs written symbols :=
  fun rest _ => h rest trivial

/-- Writing on: the new part has to be allowed behind the text, and be read by itself. -/
lemma ReadsBefore.put {before after : Text → Prop} {added : List Symbol}
    (h : ReadsBefore before written symbols) (part : Text)
    (hfollows : ∀ rest, after rest → before (part ++ rest))
    (hpart : ∀ done rest, after rest →
      readAllFrom? done (part ++ rest) = readAllFrom? (added.reverse ++ done) rest) :
    ReadsBefore after (put part written) (symbols ++ added) := by
  intro rest hrest
  rw [Json.put, List.reverse_append, List.reverse_reverse, List.append_assoc,
    h _ (hfollows rest hrest), hpart _ _ hrest, List.reverse_append]

lemma stops_cons {c : Char} (h : isNumberChar c = false ∧ c.isAlpha = false) (rest : Text) :
    Stops (c :: rest) := by
  simp [Stops, h]

lemma ReadsAs.putMark {c : Char} {s : Symbol} (h : ReadsAs written symbols)
    (hread : ∀ rest, read? c rest = some (s, rest))
    (hstop : isNumberChar c = false ∧ c.isAlpha = false) (hspace : isSpace c = false) :
    ReadsFirmly (c :: written) (symbols ++ [s]) :=
  h.put [c] (fun rest _ => stops_cons hstop rest)
    fun done rest _ => readAllFrom?_of_read? hspace (hread rest) done

lemma stops_of_isSpace {c : Char} (h : isSpace c = true) :
    isNumberChar c = false ∧ c.isAlpha = false := by
  simp only [isSpace, Bool.or_eq_true, beq_iff_eq] at h
  rcases h with ((rfl | rfl) | rfl) | rfl <;> decide

lemma ReadsAs.putSpaces (h : ReadsAs written symbols) (c : Char) (spaces : Text)
    (hspaces : ∀ x ∈ c :: spaces, isSpace x = true) :
    ReadsFirmly (put (c :: spaces) written) symbols := by
  have hc : isSpace c = true := hspaces c List.mem_cons_self
  rw [← symbols.append_nil]
  exact h.put _ (fun rest _ => stops_cons (stops_of_isSpace hc) _)
    fun done rest _ => readAllFrom?_spaces hspaces done rest

lemma ReadsAs.putLine (h : ReadsAs written symbols) (depth : Nat) :
    ReadsFirmly (putLine depth written) symbols := by
  have hspaces : ∀ x ∈ '\n' :: List.replicate (2 * depth) ' ', isSpace x = true := by
    rintro x (_ | ⟨_, hx⟩)
    · rfl
    · rw [List.eq_of_mem_replicate hx]
      rfl
  simpa [Json.put, Json.putLine] using h.putSpaces _ _ hspaces

lemma ReadsAs.putString {codes : Codes} (h : ReadsAs written symbols) (hcodes : codes.Writable) :
    ReadsFirmly (putString codes written) (symbols ++ [.string codes]) := by
  rw [putString_eq_append]
  refine h.put _ (fun rest _ => stops_cons (by decide) _) fun done rest _ => ?_
  have hread := readString?_flatMap_escape hcodes [] rest
  rw [List.cons_append, List.cons_append, List.append_assoc, List.singleton_append]
  refine readAllFrom?_of_read? (by decide) ?_ done
  simp [read?, hread]

/-- A letter or a character of a number is no mark and no space. -/
lemma read?_of_no_mark {c : Char} (h : isNumberChar c = true ∨ c.isAlpha = true) (rest : Text) :
    isSpace c = false ∧ read? c rest =
      if isNumberChar c then
        if isNumber (c :: rest.takeWhile isNumberChar) then
          some (.number (c :: rest.takeWhile isNumberChar), rest.dropWhile isNumberChar)
        else none
      else
        (ofWord? (c :: rest.takeWhile Char.isAlpha)).map
          fun s => (s, rest.dropWhile Char.isAlpha) := by
  refine ⟨?_, ?_⟩
  · rw [← Bool.not_eq_true]
    intro hspace
    simp [stops_of_isSpace hspace] at h
  · unfold read?
    split
    case h_8 => rfl
    all_goals exact absurd h (by decide)

lemma ReadsFirmly.putWord {c : Char} {letters : Text} {s : Symbol}
    (h : ReadsFirmly written symbols) (hword : ofWord? (c :: letters) = some s)
    (hletters : (c :: letters).all Char.isAlpha = true) (hc : isNumberChar c = false) :
    ReadsAs (put (c :: letters) written) (symbols ++ [s]) := by
  refine h.put _ (fun _ _ => trivial) fun done rest hrest => ?_
  obtain ⟨halpha, hletters⟩ := List.forall_mem_cons.1 (List.all_eq_true.1 hletters)
  have hstop : ∀ x ∈ rest.head?, x.isAlpha = false := fun x hx => (hrest x hx).2
  obtain ⟨hspace, hread⟩ := read?_of_no_mark (.inr halpha) (letters ++ rest)
  rw [Text.takeWhile_run hletters hstop, Text.dropWhile_run hletters hstop, hword, hc] at hread
  exact readAllFrom?_of_read? hspace hread done

lemma ReadsFirmly.putNumber {literal : Text} (h : ReadsFirmly written symbols)
    (hliteral : isNumber literal = true) :
    ReadsAs (put literal written) (symbols ++ [.number literal]) := by
  refine h.put _ (fun _ _ => trivial) fun done rest hrest => ?_
  have hchars := isNumberChar_of_isNumber hliteral
  cases literal with
  | nil => cases hliteral
  | cons c digits =>
    obtain ⟨hc, hdigits⟩ := List.forall_mem_cons.1 hchars
    have hstop : ∀ x ∈ rest.head?, isNumberChar x = false := fun x hx => (hrest x hx).1
    obtain ⟨hspace, hread⟩ := read?_of_no_mark (.inl hc) (digits ++ rest)
    rw [Text.takeWhile_run hdigits hstop, Text.dropWhile_run hdigits hstop, if_pos hc,
      if_pos hliteral] at hread
    exact readAllFrom?_of_read? hspace hread done

end texts

section values

/-- Writing the value adds its symbols to those of the text, at every depth. -/
def WritesSymbols (v : Value) : Prop :=
  ∀ (depth : Nat) {written : Text} {symbols : List Symbol}, ReadsFirmly written symbols →
    ReadsAs (putValue depth v written) (symbols ++ v.symbols)

variable {written : Text} {symbols : List Symbol}

lemma ReadsAs.putItems (h : ReadsAs written symbols) (depth : Nat) {items : List Value}
    (hitems : ∀ item ∈ items, WritesSymbols item) :
    ReadsAs (putItems depth items written) (symbols ++ itemsSymbols items) := by
  induction items generalizing written symbols with
  | nil => simpa [Json.putItems, itemsSymbols] using h
  | cons item items ih =>
    obtain ⟨hitem, hitems⟩ := List.forall_mem_cons.1 hitems
    have hcomma : ReadsFirmly (',' :: written) (symbols ++ [.comma]) :=
      h.putMark (fun _ => rfl) (by decide) (by decide)
    have hfirst := hitem depth (hcomma.readsAs.putLine depth)
    simpa [Json.putItems, itemsSymbols] using ih hfirst hitems

/-- The key of a field and the colon behind it. -/
lemma ReadsAs.putKey (h : ReadsAs written symbols) {key : Codes} (hkey : key.Writable) :
    ReadsFirmly (put ": ".toList (Json.putString key written))
      (symbols ++ [.string key, .colon]) := by
  have hcolon : ReadsFirmly (':' :: Json.putString key written)
      (symbols ++ [.string key] ++ [.colon]) :=
    (h.putString hkey).readsAs.putMark (fun _ => rfl) (by decide) (by decide)
  simpa [Json.put] using hcolon.readsAs.putSpaces ' ' [] (List.forall_mem_singleton.2 rfl)

lemma ReadsAs.putFields (h : ReadsAs written symbols) (depth : Nat)
    {fields : List (Codes × Value)} (hkeys : ∀ field ∈ fields, field.1.Writable)
    (hvalues : ∀ field ∈ fields, WritesSymbols field.2) :
    ReadsAs (putFields depth fields written) (symbols ++ fieldsSymbols fields) := by
  induction fields generalizing written symbols with
  | nil => simpa [Json.putFields, fieldsSymbols] using h
  | cons field fields ih =>
    obtain ⟨key, value⟩ := field
    obtain ⟨hkey, hkeys⟩ := List.forall_mem_cons.1 hkeys
    obtain ⟨hvalue, hvalues⟩ := List.forall_mem_cons.1 hvalues
    have hcomma : ReadsFirmly (',' :: written) (symbols ++ [.comma]) :=
      h.putMark (fun _ => rfl) (by decide) (by decide)
    have hname := (hcomma.readsAs.putLine depth).readsAs.putKey hkey
    simpa [Json.putFields, fieldsSymbols] using ih (hvalue depth hname) hkeys hvalues

lemma writesSymbols_array {items : List Value} (hitems : ∀ item ∈ items, WritesSymbols item) :
    WritesSymbols (.array items) := by
  intro depth written symbols h
  have hopen : ReadsFirmly ('[' :: written) (symbols ++ [.openArray]) :=
    h.readsAs.putMark (fun _ => rfl) (by decide) (by decide)
  have hclose {w : Text} {s : List Symbol} (h : ReadsFirmly w s) :
      ReadsAs (']' :: w) (s ++ [.closeArray]) :=
    (h.readsAs.putMark (fun _ => rfl) (by decide) (by decide)).readsAs
  cases items with
  | nil => simpa [putValue, put, Value.symbols] using hclose hopen
  | cons item items =>
    obtain ⟨hitem, hitems⟩ := List.forall_mem_cons.1 hitems
    have hfirst := hitem (depth + 1) (hopen.readsAs.putLine (depth + 1))
    have hlast := (hfirst.putItems (depth + 1) hitems).putLine depth
    simpa [putValue, Value.symbols] using hclose hlast

lemma writesSymbols_object {fields : List (Codes × Value)}
    (hkeys : ∀ field ∈ fields, field.1.Writable)
    (hvalues : ∀ field ∈ fields, WritesSymbols field.2) : WritesSymbols (.object fields) := by
  intro depth written symbols h
  have hopen : ReadsFirmly ('\x7b' :: written) (symbols ++ [.openObject]) :=
    h.readsAs.putMark (fun _ => rfl) (by decide) (by decide)
  have hclose {w : Text} {s : List Symbol} (h : ReadsFirmly w s) :
      ReadsAs ('\x7d' :: w) (s ++ [.closeObject]) :=
    (h.readsAs.putMark (fun _ => rfl) (by decide) (by decide)).readsAs
  cases fields with
  | nil => simpa [putValue, put, Value.symbols] using hclose hopen
  | cons field fields =>
    obtain ⟨key, value⟩ := field
    obtain ⟨hkey, hkeys⟩ := List.forall_mem_cons.1 hkeys
    obtain ⟨hvalue, hvalues⟩ := List.forall_mem_cons.1 hvalues
    have hname := (hopen.readsAs.putLine (depth + 1)).readsAs.putKey hkey
    have hfirst := hvalue (depth + 1) hname
    have hlast := (hfirst.putFields (depth + 1) hkeys hvalues).putLine depth
    simpa [putValue, Value.symbols] using hclose hlast

/-- Every writable value is written as its symbols. -/
lemma writesSymbols_of_writable {v : Value} (hv : v.Writable) : WritesSymbols v := by
  induction hv with
  | null => exact fun _ _ _ h => h.putWord rfl rfl rfl
  | bool b =>
    intro depth written symbols h
    cases b <;> exact h.putWord rfl rfl rfl
  | number hliteral => exact fun _ _ _ h => h.putNumber hliteral
  | string hcodes => exact fun _ _ _ h => (h.readsAs.putString hcodes).readsAs
  | array _ ih => exact writesSymbols_array ih
  | object hkeys _ ih => exact writesSymbols_object hkeys ih

/-- The symbols of a written value, with spaces behind it. -/
theorem readAll?_pretty {v : Value} (hv : v.Writable) {spaces : Text}
    (hspaces : ∀ c ∈ spaces, isSpace c = true) :
    readAll? (v.pretty ++ spaces) = some v.symbols := by
  have hstops : Stops spaces := fun c hc =>
    stops_of_isSpace (hspaces c (List.mem_of_mem_head? hc))
  have hread := writesSymbols_of_writable hv 0 readsFirmly_nil spaces hstops
  have hend := readAllFrom?_spaces hspaces v.symbols.reverse []
  rw [List.append_nil] at hend
  rw [readAll?, Value.pretty, hread, List.nil_append, hend, readAllFrom?_eq]
  simp

end values

end Symbol
end Mustache.Json
