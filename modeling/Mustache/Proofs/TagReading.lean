import Mustache.Lexer
import Mustache.Proofs.Cut

/-! Reading a single tag. A reader in front of a well-formed spelling reads exactly that tag; in
front of any other opening sequence it fails, and the way it fails says what is wrong there. -/
namespace Mustache

namespace Reader

lemma advance_advance (r : Reader) (m n : Nat) : (r.advance m).advance n = r.advance (m + n) := by
  fun_induction advance m r with
  | case1 r => rw [Nat.zero_add]
  | case2 m consumed position => cases n <;> cases m <;> simp [advance]
  | case3 m consumed c rest position ih =>
    rw [ih, Nat.succ_add]
    rfl

lemma rest_advance_of_append {r : Reader} {t u : Text} {n : Nat} (h : r.rest = t ++ u)
    (hn : n = t.length) : (r.advance n).rest = u := by
  rw [rest_advance, h, hn, List.drop_left]

lemma consumed_advance_of_append {r : Reader} {t u : Text} {n : Nat} (h : r.rest = t ++ u)
    (hn : n = t.length) : (r.advance n).consumed = t.reverse ++ r.consumed := by
  rw [consumed_advance, h, hn, List.take_left]

lemma takeUntil_of_firstAfter {r : Reader} {p u w : Text} (hr : r.rest = u ++ p ++ w)
    (hu : FirstAfter p u) : r.takeUntil p = (some u, r.advance u.length) := by
  rw [takeUntil, hr, firstIndex?_append hu]
  simp [peek, hr]

lemma takeUntil_of_not_infix {r : Reader} {p : Text} (h : ¬ p <:+: r.rest) :
    r.takeUntil p = (none, r.toEnd) := by
  rw [takeUntil, firstIndex?_eq_none_iff.2 h]

lemma skipBlanks_of_append {r : Reader} {w : Text} {c : Char} {t : Text}
    (hr : r.rest = w ++ c :: t) (hw : ∀ a ∈ w, isBlank a = true) (hc : isBlank c = false) :
    r.skipBlanks.2 = r.advance w.length := by
  simp [skipBlanks, skipWhile, runLength, hr, List.takeWhile_append_of_pos hw, hc]

lemma skipBlanks_of_blanks {r : Reader} (hr : ∀ a ∈ r.rest, isBlank a = true) :
    r.skipBlanks.2 = r.toEnd := by
  simp [skipBlanks, skipWhile, runLength, toEnd, List.takeWhile_eq_self_iff.2 hr]

lemma next?_of_cons {r : Reader} {c : Char} {t : Text} (hr : r.rest = c :: t) :
    r.next? = some (c, r.advance 1) := by
  simp [next?, hr]

end Reader

namespace Tag

/-- What is left to do in a tag once its sigil is read. -/
def readBody (d : Delimiters) (sigil : Char) (body : Reader) : Except Failure (Tag × Reader) :=
  match body.takeUntil d.closing with
  | (none, stop) => .error ⟨stop.position, .unclosed⟩
  | (some content, found) =>
    let after := found.skip d.closing
    if sigil == '\x7b' then
      match after.accept ['\x7d'] with
      | (true, braced) => .ok (⟨sigil, content⟩, braced)
      | (false, stop) => .error ⟨stop.position, .missingBrace⟩
    else .ok (⟨sigil, content⟩, after)

lemma read_eq_readBody {d : Delimiters} {r : Reader} {padding rest : Text} {sigil : Char}
    (hr : r.rest = d.opening ++ padding ++ sigil :: rest)
    (hp : ∀ c ∈ padding, isBlank c = true) (hs : isBlank sigil = false) :
    read d r = readBody d sigil (r.advance (d.opening ++ padding ++ [sigil]).length) := by
  have hopen : (r.advance d.opening.length).rest = padding ++ sigil :: rest :=
    Reader.rest_advance_of_append (by rw [hr, List.append_assoc]) rfl
  have hinside : (r.skip d.opening).skipBlanks.2 = r.advance (d.opening ++ padding).length := by
    rw [Reader.skip, Reader.skipBlanks_of_append hopen hp hs, Reader.advance_advance,
      List.length_append]
  have hrest : (r.advance (d.opening ++ padding).length).rest = sigil :: rest :=
    Reader.rest_advance_of_append hr rfl
  have hbody : (r.advance (d.opening ++ padding).length).advance 1 =
      r.advance (d.opening ++ padding ++ [sigil]).length := by
    rw [Reader.advance_advance, List.length_append, List.length_append, List.length_append]
    rfl
  unfold read
  simp only [hinside, Reader.next?_of_cons hrest, hbody]
  rfl

lemma readBody_of_content {d : Delimiters} {sigil : Char} {body : Reader} {content after : Text}
    (hr : body.rest = content ++ d.closing ++ after) (hc : FirstAfter d.closing content)
    (hs : sigil ≠ '\x7b') :
    readBody d sigil body = .ok (⟨sigil, content⟩, body.advance (content ++ d.closing).length) := by
  rw [readBody, Reader.takeUntil_of_firstAfter hr hc]
  simp [hs, Reader.skip, Reader.advance_advance]

lemma readBody_of_brace {d : Delimiters} {body : Reader} {content after : Text}
    (hr : body.rest = content ++ d.closing ++ '\x7d' :: after) (hc : FirstAfter d.closing content) :
    readBody d '\x7b' body =
      .ok (⟨'\x7b', content⟩, body.advance (content ++ d.closing ++ ['\x7d']).length) := by
  have hafter : (body.advance (content ++ d.closing).length).rest = '\x7d' :: after :=
    Reader.rest_advance_of_append hr rfl
  rw [readBody, Reader.takeUntil_of_firstAfter hr hc]
  simp only [Reader.skip, Reader.advance_advance, ← List.length_append, Reader.accept,
    Reader.startsWith, hafter]
  simp

lemma readBody_of_no_brace {d : Delimiters} {body : Reader} {content after : Text}
    (hr : body.rest = content ++ d.closing ++ after) (hc : FirstAfter d.closing content)
    (ha : ¬ ['\x7d'] <+: after) :
    readBody d '\x7b' body =
      .error ⟨(body.advance (content ++ d.closing).length).position, .missingBrace⟩ := by
  have hafter : (body.advance (content ++ d.closing).length).rest = after :=
    Reader.rest_advance_of_append hr rfl
  have hno : ['\x7d'].isPrefixOf after = false := by
    rw [Bool.eq_false_iff, ne_eq, List.isPrefixOf_iff_prefix]
    exact ha
  rw [readBody, Reader.takeUntil_of_firstAfter hr hc]
  simp only [Reader.skip, Reader.advance_advance, ← List.length_append, Reader.accept,
    Reader.startsWith, hafter, hno]
  rfl

lemma readBody_of_not_infix {d : Delimiters} {sigil : Char} {body : Reader}
    (h : ¬ d.closing <:+: body.rest) :
    readBody d sigil body = .error ⟨body.toEnd.position, .unclosed⟩ := by
  rw [readBody, Reader.takeUntil_of_not_infix h]

lemma read_eq_error_of_blanks {d : Delimiters} {r : Reader} {blanks : Text}
    (hr : r.rest = d.opening ++ blanks) (hblanks : ∀ c ∈ blanks, isBlank c = true) :
    read d r = .error ⟨(r.advance (d.opening ++ blanks).length).position, .empty⟩ := by
  have hopen : (r.advance d.opening.length).rest = blanks :=
    Reader.rest_advance_of_append hr rfl
  have hinside : (r.skip d.opening).skipBlanks.2 = r.advance (d.opening ++ blanks).length := by
    rw [Reader.skip, Reader.skipBlanks_of_blanks (by rwa [hopen]), Reader.toEnd, hopen,
      Reader.advance_advance, List.length_append]
  have hnext : (r.advance (d.opening ++ blanks).length).next? = none := by
    have hrest : (r.advance (d.opening ++ blanks).length).rest = [] :=
      Reader.rest_advance_of_append (u := []) (by simpa using hr) rfl
    rw [Reader.next?, hrest]
  unfold read
  simp only [hinside, hnext]

/-- A reader in front of a tag reads it as it is spelled and stops right behind it. Whether the
content of a directive names a pair does not matter for that. -/
lemma read_of_text {d : Delimiters} {r : Reader} {s : Spelling} {after : Text}
    (hpadding : ∀ c ∈ s.padding, isBlank c = true) (hsigil : isBlank s.tag.sigil = false)
    (hcontent : FirstAfter d.closing s.tag.content) (hr : r.rest = s.text d ++ after) :
    read d r = .ok (s.tag, r.advance (s.text d).length) := by
  obtain ⟨padding, sigil, content⟩ := s
  have hr' : r.rest = d.opening ++ padding ++
      sigil :: (content ++ d.closing ++ Spelling.brace ⟨padding, sigil, content⟩ ++ after) := by
    rw [hr, Spelling.text]
    simp only [List.append_assoc, List.cons_append]
  have hbody : (r.advance (d.opening ++ padding ++ [sigil]).length).rest =
      content ++ d.closing ++ (Spelling.brace ⟨padding, sigil, content⟩ ++ after) := by
    apply Reader.rest_advance_of_append (t := d.opening ++ padding ++ [sigil])
    · rw [hr']
      simp only [List.append_assoc, List.cons_append, List.nil_append]
    · rfl
  rw [read_eq_readBody hr' hpadding hsigil]
  by_cases h : sigil = '\x7b'
  · subst h
    rw [readBody_of_brace hbody hcontent, Reader.advance_advance, ← List.length_append]
    simp only [Spelling.text, Spelling.brace, if_true, List.append_assoc, List.cons_append,
      List.nil_append]
  · rw [readBody_of_content hbody hcontent h, Reader.advance_advance, ← List.length_append]
    simp only [Spelling.text, Spelling.brace, if_neg h, List.append_assoc, List.cons_append,
      List.nil_append, List.append_nil]

/-- A reader in front of a well-formed spelling reads that tag and stops right behind it. -/
theorem read_of_spelling {d : Delimiters} {r : Reader} {s : Spelling} {after : Text}
    (hs : s.WellFormed d) (hr : r.rest = s.text d ++ after) :
    read d r = .ok (s.tag, r.advance (s.text d).length) :=
  read_of_text hs.padding hs.sigil hs.content hr

end Tag

/-- What follows an opening sequence under a pair is no tag. The defect is noticed once `read` is
read and `unread` is left. -/
inductive Broken (d : Delimiters) : Defect → Text → Text → Prop
  | empty {read : Text} (hread : ∀ c ∈ read, isBlank c = true) : Broken d .empty read []
  | unclosed {padding body : Text} {sigil : Char} (hpadding : ∀ c ∈ padding, isBlank c = true)
      (hsigil : isBlank sigil = false) (hbody : ¬ d.closing <:+: body) :
      Broken d .unclosed (padding ++ sigil :: body) []
  | missingBrace {padding content unread : Text} (hpadding : ∀ c ∈ padding, isBlank c = true)
      (hcontent : FirstAfter d.closing content) (hunread : ¬ ['\x7d'] <+: unread) :
      Broken d .missingBrace (padding ++ '\x7b' :: content ++ d.closing) unread
  | badDirective {padding content unread : Text} (hpadding : ∀ c ∈ padding, isBlank c = true)
      (hcontent : FirstAfter d.closing content) (hpair : Delimiters.ofDirective? content = none) :
      Broken d .badDirective (padding ++ '=' :: content ++ d.closing) unread

/-- Behind an opening sequence there is a tag or something that is none. -/
theorem exists_spelling_or_broken (d : Delimiters) (inside : Text) :
    (∃ s after, Spelling.WellFormed d s ∧ d.opening ++ inside = s.text d ++ after) ∨
      ∃ defect read unread, Broken d defect read unread ∧ inside = read ++ unread := by
  have hsplit : inside = inside.takeWhile isBlank ++ inside.dropWhile isBlank :=
    List.takeWhile_append_dropWhile.symm
  have hpadding : ∀ c ∈ inside.takeWhile isBlank, isBlank c = true :=
    fun c hc => List.mem_takeWhile_imp hc
  generalize inside.takeWhile isBlank = padding at hsplit hpadding
  cases hrest : inside.dropWhile isBlank with
  | nil =>
    refine .inr ⟨_, padding, [], .empty hpadding, ?_⟩
    rw [hsplit, hrest]
  | cons sigil rest =>
    have hsigil : isBlank sigil = false := by
      have h := List.head?_dropWhile_not isBlank inside
      simpa [hrest] using h
    rw [hrest] at hsplit
    cases hfind : firstIndex? d.closing rest with
    | none =>
      refine .inr ⟨_, padding ++ sigil :: rest, [], .unclosed hpadding hsigil ?_,
        by simpa using hsplit⟩
      exact firstIndex?_eq_none_iff.1 hfind
    | some n =>
      obtain ⟨content, after, rfl, -, hcontent⟩ := exists_of_firstIndex?_eq_some hfind
      by_cases hbrace : sigil = '\x7b'
      · subst hbrace
        by_cases hafter : ['\x7d'] <+: after
        · obtain ⟨unread, rfl⟩ := hafter
          refine .inl ⟨⟨padding, '\x7b', content⟩, unread, ⟨hpadding, hsigil, hcontent, ?_⟩, ?_⟩
          · exact fun h => absurd h (show '\x7b' ≠ '=' by decide)
          · simp [hsplit, Spelling.text, Spelling.brace]
        · exact .inr ⟨_, _, after, .missingBrace hpadding hcontent hafter, by simp [hsplit]⟩
      · by_cases heq : sigil = '=' ∧ Delimiters.ofDirective? content = none
        · obtain ⟨rfl, hpair⟩ := heq
          exact .inr ⟨_, _, after, .badDirective hpadding hcontent hpair, by simp [hsplit]⟩
        · refine .inl ⟨⟨padding, sigil, content⟩, after, ⟨hpadding, hsigil, hcontent, ?_⟩, ?_⟩
          · intro h
            rw [Option.isSome_iff_ne_none]
            exact fun hnone => heq ⟨h, hnone⟩
          · simp [hsplit, Spelling.text, Spelling.brace, hbrace]

namespace Lexer

/-- A run in front of a well-formed spelling adds the token of that tag. -/
lemma readTag_of_spelling {s : Lexer} {sp : Spelling} {after : Text}
    (hsp : sp.WellFormed s.delimiters) (hr : s.reader.rest = sp.text s.delimiters ++ after) :
    s.readTag = .ok (s.addTag (sp.token s.reader.consumed)
      (s.reader.advance (sp.text s.delimiters).length)) := by
  simp only [readTag, Tag.read_of_spelling hsp hr, bind, Except.bind]
  rw [Reader.lineIndent?, hsp.token?]
  rfl

lemma readTag_of_read_error {s : Lexer} {failure : Failure}
    (h : Tag.read s.delimiters s.reader = .error failure) : s.readTag = .error failure := by
  simp only [readTag, h, bind, Except.bind]

/-- A run in front of something that is no tag fails where the defect is noticed. -/
lemma readTag_of_broken {s : Lexer} {defect : Defect} {read unread : Text}
    (h : Broken s.delimiters defect read unread)
    (hr : s.reader.rest = s.delimiters.opening ++ read ++ unread) :
    s.readTag =
      .error ⟨(s.reader.advance (s.delimiters.opening ++ read).length).position, defect⟩ := by
  cases h with
  | empty hread =>
    apply readTag_of_read_error
    exact Tag.read_eq_error_of_blanks (by simpa using hr) hread
  | @unclosed padding body sigil hpadding hsigil hbody =>
    apply readTag_of_read_error
    have hrest : (s.reader.advance (s.delimiters.opening ++ padding ++ [sigil]).length).rest =
        body := Reader.rest_advance_of_append (by simpa using hr) rfl
    rw [Tag.read_eq_readBody (by simpa using hr) hpadding hsigil,
      Tag.readBody_of_not_infix (by rwa [hrest]), Reader.toEnd, hrest, Reader.advance_advance,
      ← List.length_append]
    simp only [List.append_assoc, List.cons_append, List.nil_append]
  | @missingBrace padding content unread hpadding hcontent hunread =>
    apply readTag_of_read_error
    have hrest : (s.reader.advance (s.delimiters.opening ++ padding ++ ['\x7b']).length).rest =
        content ++ s.delimiters.closing ++ unread :=
      Reader.rest_advance_of_append (by simpa using hr) rfl
    rw [Tag.read_eq_readBody (by simpa using hr) hpadding rfl,
      Tag.readBody_of_no_brace hrest hcontent hunread,
      Reader.advance_advance, ← List.length_append]
    simp only [List.append_assoc, List.cons_append, List.nil_append]
  | @badDirective padding content unread hpadding hcontent hpair =>
    have htext : Spelling.text s.delimiters ⟨padding, ⟨'=', content⟩⟩ =
        s.delimiters.opening ++ (padding ++ '=' :: content ++ s.delimiters.closing) := by
      simp [Spelling.text, Spelling.brace]
    have hread := Tag.read_of_text (s := ⟨padding, ⟨'=', content⟩⟩) hpadding rfl hcontent
      (by rw [htext]; exact hr)
    rw [htext] at hread
    simp only [readTag, hread, bind, Except.bind, Tag.token?, hpair]
    rfl

end Lexer
end Mustache
