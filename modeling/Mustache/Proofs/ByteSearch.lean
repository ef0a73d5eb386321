import Mustache.Proofs.Occurrence
import Mustache.Proofs.Place

/-! Texts as bytes. The bytes of a text determine it, no character's bytes begin another's, and no
character begins inside another; so searching the bytes of a text for the bytes of a pattern finds
what searching the characters finds. -/
namespace Mustache

namespace Text

/-- The bytes of a text in UTF-8. -/
def bytes (t : Text) : List UInt8 := t.flatMap String.utf8EncodeChar

lemma utf8Encode_eq (t : Text) : t.utf8Encode = ⟨t.bytes.toArray⟩ := by
  apply ByteArray.ext
  exact List.data_toByteArray

/-- Bytes are decoded to a text exactly if they are the bytes of the text. -/
lemma ofBytes?_eq_some_iff {b : List UInt8} {t : Text} : ofBytes? b = some t ↔ b = t.bytes := by
  unfold ofBytes? String.fromUTF8?
  constructor
  · intro h
    split at h
    next hvalid =>
      obtain rfl : (String.fromUTF8 ⟨b.toArray⟩ hvalid).toList = t := by simpa using h
      have hencode := utf8Encode_eq (String.fromUTF8 ⟨b.toArray⟩ hvalid).toList
      rw [String.utf8Encode_toList] at hencode
      simpa [String.fromUTF8] using hencode
    next => cases h
  · rintro rfl
    have hvalid : ByteArray.IsValidUTF8 ⟨t.bytes.toArray⟩ := ⟨t, (utf8Encode_eq t).symm⟩
    have hstring : String.fromUTF8 _ hvalid = String.ofList t := by
      rw [← String.toByteArray_inj, String.toByteArray_ofList, utf8Encode_eq]
      rfl
    rw [dif_pos hvalid, Option.map_some, hstring, String.toList_ofList]

@[simp] lemma bytes_nil : bytes [] = [] := rfl

@[simp] lemma bytes_cons (c : Char) (t : Text) :
    bytes (c :: t) = String.utf8EncodeChar c ++ bytes t := rfl

@[simp] lemma bytes_append (t u : Text) : bytes (t ++ u) = bytes t ++ bytes u :=
  List.flatMap_append

@[simp] lemma length_bytes (t : Text) : t.bytes.length = byteSize t := by
  induction t with
  | nil => rfl
  | cons c t ih =>
    rw [bytes_cons, List.length_append, String.length_utf8EncodeChar, ih, byteSize_cons]

/-- Bytes that begin with a character's begin with no other character's. -/
lemma utf8EncodeChar_append_inj {c c' : Char} {u u' : List UInt8}
    (h : String.utf8EncodeChar c ++ u = String.utf8EncodeChar c' ++ u') : c = c' ∧ u = u' := by
  have hdecode := congrArg (fun l => ByteArray.utf8DecodeChar? l.toByteArray 0) h
  simp only [List.toByteArray_append, ByteArray.utf8DecodeChar?_utf8EncodeChar_append,
    Option.some.injEq] at hdecode
  subst hdecode
  exact ⟨rfl, List.append_cancel_left h⟩

/-- One text begins another exactly if its bytes begin the other's. -/
lemma bytes_prefix_iff {p s : Text} : p.bytes <+: s.bytes ↔ p <+: s := by
  constructor
  · intro h
    induction p generalizing s with
    | nil => exact List.nil_prefix
    | cons c p ih =>
      obtain ⟨w, hw⟩ := h
      cases s with
      | nil =>
        have hempty := (List.append_eq_nil_iff.1 hw).1
        exact absurd (List.append_eq_nil_iff.1 hempty).1 String.utf8EncodeChar_ne_nil
      | cons c' s =>
        rw [bytes_cons, bytes_cons, List.append_assoc] at hw
        obtain ⟨rfl, hrest⟩ := utf8EncodeChar_append_inj hw
        exact List.cons_prefix_cons.2 ⟨rfl, ih ⟨w, hrest⟩⟩
  · rintro ⟨w, rfl⟩
    rw [bytes_append]
    exact List.prefix_append _ _

/-- Inside a character no text begins. -/
lemma not_bytes_prefix_drop {p : Text} (hp : p ≠ []) {c : Char} {n : Nat} (hpos : 0 < n)
    (hn : n < (String.utf8EncodeChar c).length) (u : List UInt8) :
    ¬ p.bytes <+: (String.utf8EncodeChar c).drop n ++ u := by
  rintro ⟨w, hw⟩
  cases p with
  | nil => exact hp rfl
  | cons a p =>
    have hlen : 0 < (String.utf8EncodeChar a).length :=
      List.length_pos_iff.2 String.utf8EncodeChar_ne_nil
    have hfirst : (String.utf8EncodeChar a)[0] = (String.utf8EncodeChar c)[n] := by
      have hdrop : 0 < ((String.utf8EncodeChar c).drop n).length := by
        rw [List.length_drop]
        omega
      have hget := congrArg (fun l => l[0]?) hw
      simp only [bytes_cons, List.append_assoc] at hget
      rw [List.getElem?_append_left hlen, List.getElem?_append_left hdrop, List.getElem?_drop,
        List.getElem?_eq_getElem hlen, List.getElem?_eq_getElem (by omega)] at hget
      simpa using hget
    have hstart : (String.utf8EncodeChar a)[0].IsUTF8FirstByte :=
      UInt8.isUTF8FirstByte_getElem_utf8EncodeChar.2 rfl
    rw [hfirst, UInt8.isUTF8FirstByte_getElem_utf8EncodeChar] at hstart
    omega

end Text

/-- A search goes on behind a part where the pattern occurs at no place. -/
lemma firstIndex?_append_of_not_prefix {α : Type} [BEq α] [LawfulBEq α] {p u s : List α}
    (h : ∀ n < u.length, ¬ p <+: u.drop n ++ s) :
    firstIndex? p (u ++ s) = (firstIndex? p s).map (· + u.length) := by
  induction u with
  | nil => simp
  | cons c u ih =>
    have hno : p.isPrefixOf (c :: (u ++ s)) = false := by
      rw [Bool.eq_false_iff, ne_eq, List.isPrefixOf_iff_prefix]
      exact h 0 (by simp)
    have hrest : ∀ n < u.length, ¬ p <+: u.drop n ++ s :=
      fun n hn => h (n + 1) (Nat.succ_lt_succ hn)
    rw [List.cons_append, firstIndex?_cons, hno, ih hrest]
    simp [Option.map_map, Function.comp_def, Nat.add_assoc]

/-- Searching bytes finds the first occurrence among the characters, and tells its offset. -/
theorem firstIndex?_bytes (p s : Text) :
    firstIndex? p.bytes s.bytes = (firstIndex? p s).map fun n => Text.byteSize (s.take n) := by
  induction s with
  | nil => cases p <;> simp [firstIndex?, firstIndexFrom?, String.utf8EncodeChar_ne_nil]
  | cons c s ih =>
    by_cases hfront : p <+: c :: s
    · obtain ⟨w, hw⟩ := hfront
      have hchars : firstIndex? p (c :: s) = some 0 := by
        rw [← hw]
        exact firstIndex?_append (firstAfter_nil p) w
      have hbytes : firstIndex? p.bytes (Text.bytes (c :: s)) = some 0 := by
        rw [← hw, Text.bytes_append]
        exact firstIndex?_append (firstAfter_nil p.bytes) (Text.bytes w)
      rw [hchars, hbytes]
      rfl
    · have hp : p ≠ [] := by
        rintro rfl
        exact hfront List.nil_prefix
      -- Before its first byte the pattern is compared as a text; inside it no text begins.
      have hinside : ∀ n < (String.utf8EncodeChar c).length,
          ¬ p.bytes <+: (String.utf8EncodeChar c).drop n ++ Text.bytes s := by
        intro n hn
        rcases Nat.eq_zero_or_pos n with rfl | hpos
        · exact fun h => hfront (Text.bytes_prefix_iff.1 h)
        · exact Text.not_bytes_prefix_drop hp hpos hn _
      have hno : p.isPrefixOf (c :: s) = false := by
        rwa [Bool.eq_false_iff, ne_eq, List.isPrefixOf_iff_prefix]
      rw [Text.bytes_cons, firstIndex?_append_of_not_prefix hinside, ih, firstIndex?_cons, hno]
      simp [Option.map_map, Function.comp_def, String.length_utf8EncodeChar, Nat.add_comm]

example : firstIndex? (Text.bytes ['\u00A9']) (Text.bytes "aé©".toList) = some 3 := by decide

end Mustache
