import PageBuilder.Proofs.Json.Scalar
import PageBuilder.Proofs.Reference.Grammar
import PageBuilder.Proofs.Scope

/-!
References that are read again from the text that shows them. Keys are shown as JSON writes a text,
with escapes of its own for control characters, and read by a rule that knows only those of the line
feed and the tab. A reference is read as it was if and only if no key of it holds another one.
-/

namespace PageBuilder

open JsonTree (escapedChar)

namespace PathSegment

theorem text_of_cons (segment : PathSegment) (rest : List PathSegment) :
    (textOf (segment :: rest)).toList = segment.text.toList ++ (textOf rest).toList := by
  rw [textOf, List.map_cons, String.join_cons, String.toList_append, textOf]

theorem field_chars (word : String) : (field word).text.toList = '.' :: word.toList := by
  rw [text, String.toList_append]
  rfl

theorem index_chars (number : Nat) :
    (index number).text.toList = '[' :: ((toString number).toList ++ [']']) := by
  simp [text, ToString.toString]

theorem key_chars (word : String) :
    (key word).text.toList = '[' :: ((Json.stringText word).toList ++ [']']) := by
  simp [text]

def Proper (segments : List PathSegment) : Prop :=
  ∀ word, .field word ∈ segments → Identifier.isValid word = true

theorem Proper.tail {segment : PathSegment} {rest : List PathSegment}
    (proper : Proper (segment :: rest)) : Proper rest :=
  fun word member => proper word (List.mem_cons_of_mem _ member)

/-- What holds of the pieces that paths are written with, and of longer texts of them. -/
structure Closed (holds : List Char → Prop) : Prop where
  nil : holds []
  append : ∀ {front back : List Char}, holds front → holds back → holds (front ++ back)
  dot : holds ['.']
  enclosed : ∀ {inner : List Char}, holds inner → holds ('[' :: (inner ++ [']']))
  name : ∀ {word : String}, Identifier.isValid word = true → holds word.toList
  number : ∀ number : Nat, holds (toString number).toList

theorem Closed.path {holds : List Char → Prop} (closed : Closed holds)
    {segments : List PathSegment} (proper : Proper segments)
    (keys : ∀ word, .key word ∈ segments → holds (Json.stringText word).toList) :
    holds (textOf segments).toList := by
  induction segments with
  | nil => exact closed.nil
  | cons segment rest ih =>
      rw [text_of_cons]
      refine closed.append ?_ (ih proper.tail fun word member => keys word (by simp [member]))
      cases segment with
      | field word =>
          rw [field_chars]
          exact closed.append closed.dot (closed.name (proper word List.mem_cons_self))
      | index number =>
          rw [index_chars]
          exact closed.enclosed (closed.number number)
      | key word =>
          rw [key_chars]
          exact closed.enclosed (keys word List.mem_cons_self)

theorem key_subset {segments : List PathSegment} {word : String} (member : .key word ∈ segments) :
    (Json.stringText word).toList ⊆ (textOf segments).toList := by
  induction segments with
  | nil => cases member
  | cons segment rest ih =>
      rw [text_of_cons]
      cases member with
      | head =>
          rw [key_chars]
          apply List.subset_append_of_subset_left
          exact List.subset_cons_of_subset _ (List.subset_append_left _ _)
      | tail _ later => exact List.subset_append_of_subset_right _ (ih later)

def Bounded (segments : List PathSegment) : Prop :=
  ∀ number, .index number ∈ segments → number < UInt64.size

theorem Bounded.tail {segment : PathSegment} {rest : List PathSegment}
    (bounded : Bounded (segment :: rest)) : Bounded rest :=
  fun number member => bounded number (List.mem_cons_of_mem _ member)

end PathSegment

namespace PathToken

def Kept (char : Char) : Prop := 0x20 ≤ char.toNat ∨ char = '\n' ∨ char = '\t'

instance (char : Char) : Decidable (Kept char) := inferInstanceAs (Decidable (_ ∨ _ ∨ _))

/-- What is read where JSON writes a character. The letters and digits of other escapes are read as
such, without the backslash. -/
def rereadChar (char : Char) : List Char :=
  if Kept char then [char]
  else if char.toNat = 8 then ['b']
  else if char.toNat = 12 then ['f']
  else if char = '\r' then ['r']
  else ['u', '0', '0', Text.hexDigit (char.toNat / 16), Text.hexDigit (char.toNat % 16)]

def reread (word : String) : String := String.ofList (word.toList.flatMap rereadChar)

theorem quoted_hex {value : Nat} (small : value < 16) {written text : List Char}
    (rest : Quoted '"' written text) :
    Quoted '"' (Text.hexDigit value :: written) (Text.hexDigit value :: text) := by
  have plain : ∀ value < 16, Text.hexDigit value ≠ '"' ∧ Text.hexDigit value ≠ '\\' := by decide
  exact .plain (plain value small).1 (plain value small).2 rest

theorem quoted_escaped (char : Char) {written value : List Char} (rest : Quoted '"' written value) :
    Quoted '"' (escapedChar char ++ written) (rereadChar char ++ value) := by
  unfold escapedChar
  split_ifs with quote slash back page feed carriage tab control
  · subst quote
    exact .itself (by decide) (by decide) (by decide) rest
  · subst slash
    exact .itself (by decide) (by decide) (by decide) rest
  · rw [Json.char_of_code back]
    exact .itself (by decide) (by decide) (by decide) rest
  · rw [Json.char_of_code page]
    exact .itself (by decide) (by decide) (by decide) rest
  · subst feed
    exact .feed rest
  · subst carriage
    exact .itself (by decide) (by decide) (by decide) rest
  · subst tab
    exact .tab rest
  · have lost : ¬Kept char := by
      rintro (high | same)
      · omega
      · exact same.elim feed tab
    have low := quoted_hex (by omega : char.toNat % 16 < 16) rest
    have high := quoted_hex (by omega : char.toNat / 16 < 16) low
    rw [rereadChar, if_neg lost, if_neg back, if_neg page, if_neg carriage]
    apply Quoted.itself (by decide) (by decide) (by decide)
    exact .plain (by decide) (by decide) (.plain (by decide) (by decide) high)
  · have kept : Kept char := Or.inl (by omega)
    rw [rereadChar, if_pos kept]
    exact .plain quote slash rest

theorem quoted_key (chars : List Char) :
    Quoted '"' (chars.flatMap escapedChar) (chars.flatMap rereadChar) := by
  induction chars with
  | nil => exact .nil
  | cons char rest ih => exact quoted_escaped char ih

theorem reread_lost {char : Char} (lost : ¬Kept char) :
    ∃ letter rest, rereadChar char = letter :: rest ∧ Kept letter := by
  rw [rereadChar, if_neg lost]
  split_ifs
  · exact ⟨'b', [], rfl, by decide⟩
  · exact ⟨'f', [], rfl, by decide⟩
  · exact ⟨'r', [], rfl, by decide⟩
  · exact ⟨'u', _, rfl, by decide⟩

theorem reread_chars_iff {chars : List Char} :
    chars.flatMap rereadChar = chars ↔ ∀ char ∈ chars, Kept char := by
  induction chars with
  | nil => simp
  | cons char rest ih =>
      rw [List.flatMap_cons, List.forall_mem_cons]
      by_cases kept : Kept char
      · simp [rereadChar, kept, ih]
      · obtain ⟨letter, more, shape, other⟩ := reread_lost kept
        have apart : letter ≠ char := fun same => kept (same ▸ other)
        simp [shape, apart, kept]

theorem reread_eq_iff {word : String} : reread word = word ↔ ∀ char ∈ word.toList, Kept char := by
  rw [reread, ← reread_chars_iff, ← String.toList_inj, String.toList_ofList]

theorem spelled_key (word : String) :
    Spelled (.text (reread word)) (Json.stringText word).toList := by
  rw [Json.stringText, String.toList_ofList]
  exact .text (Or.inl rfl) (quoted_key word.toList)

theorem spelled_index {number : Nat} (fits : number < UInt64.size) :
    Spelled (.number number) (toString number).toList := by
  have value : Nat.ofDigitChars 10 (Nat.toDigits 10 number) 0 = number :=
    Nat.ofDigitChars_toDigits (by decide) (by decide)
  have spelled : Spelled (.number (Nat.ofDigitChars 10 (Nat.toDigits 10 number) 0))
      (Nat.toDigits 10 number) := by
    apply Spelled.number Nat.toDigits_ne_nil
    · intro digit member
      exact Identifier.is_digit_of_digit
        (Nat.isDigit_of_mem_toDigits (by decide) (by decide) member)
    · rw [value]
      exact fits
  rw [value] at spelled
  rw [Nat.toString_eq_repr, Nat.repr_eq_ofList_toDigits, String.toList_ofList]
  exact spelled

theorem valid_of_spelled {word : String} {written : List Char}
    (spelled : Spelled (.name word) written) : Identifier.isValid word = true := by
  cases spelled with
  | name valid => exact valid

theorem fits_of_spelled {number : Nat} {written : List Char}
    (spelled : Spelled (.number number) written) : number < UInt64.size := by
  cases spelled with
  | number _ _ fits => exact fits

end PathToken

def PathSegment.reread : PathSegment → PathSegment
  | .key word => .key (PathToken.reread word)
  | segment => segment

namespace Reference

open PathToken (Spaced Kept)

def reread (reference : Reference) : Reference :=
  ⟨reference.root, reference.segments.map PathSegment.reread⟩

theorem spaced_path {segments : List PathSegment} (proper : PathSegment.Proper segments)
    (bounded : PathSegment.Bounded segments) :
    Spaced ((segments.map PathSegment.reread).flatMap PathSegment.tokens)
      (PathSegment.textOf segments).toList := by
  have dotted {tokens : List PathToken} {chars : List Char} (rest : Spaced tokens chars) :
      Spaced (.dot :: tokens) ('.' :: chars) := .token .dot rest
  have opened {tokens : List PathToken} {chars : List Char} (rest : Spaced tokens chars) :
      Spaced (.opening :: tokens) ('[' :: chars) := .token .opening rest
  have closed {tokens : List PathToken} {chars : List Char} (rest : Spaced tokens chars) :
      Spaced (.closing :: tokens) (']' :: chars) := .token .closing rest
  induction segments with
  | nil => exact .nil
  | cons segment rest ih =>
      have later := ih proper.tail bounded.tail
      rw [List.map_cons, List.flatMap_cons, PathSegment.text_of_cons]
      cases segment with
      | field word =>
          rw [PathSegment.field_chars]
          exact dotted (.token (.name (proper word List.mem_cons_self)) later)
      | index number =>
          rw [PathSegment.index_chars, List.cons_append, List.append_assoc]
          have spelled := PathToken.spelled_index (bounded number List.mem_cons_self)
          exact opened (.token spelled (closed later))
      | key word =>
          rw [PathSegment.key_chars, List.cons_append, List.append_assoc]
          exact opened (.token (PathToken.spelled_key word) (closed later))

theorem proper_of_spaced {reference : Reference} {chars : List Char}
    (spaced : Spaced reference.tokens chars) : PathSegment.Proper reference.segments := by
  intro word member
  have listed : .name word ∈ reference.tokens := by
    apply List.mem_cons_of_mem
    exact List.mem_flatMap.2 ⟨.field word, member, by simp [PathSegment.tokens]⟩
  obtain ⟨written, spelled⟩ := spaced.spelled listed
  exact PathToken.valid_of_spelled spelled

theorem bounded_of_spaced {reference : Reference} {chars : List Char}
    (spaced : Spaced reference.tokens chars) : PathSegment.Bounded reference.segments := by
  intro number member
  have listed : .number number ∈ reference.tokens := by
    apply List.mem_cons_of_mem
    exact List.mem_flatMap.2 ⟨.index number, member, by simp [PathSegment.tokens]⟩
  obtain ⟨written, spelled⟩ := spaced.spelled listed
  exact PathToken.fits_of_spelled spelled

theorem read_text {chars : List Char} {reference : Reference}
    (spaced : Spaced reference.tokens chars) : read reference.text = .ok reference.reread := by
  have listed : .name reference.root ∈ reference.tokens := List.mem_cons_self
  obtain ⟨written, named⟩ := spaced.spelled listed
  have root := PathToken.Spelled.name (PathToken.valid_of_spelled named)
  have path := spaced_path (proper_of_spaced spaced) (bounded_of_spaced spaced)
  rw [read, read_at_ok_iff, text, String.toList_append]
  exact .token root path

theorem reread_segment_iff {segment : PathSegment} : segment.reread = segment ↔
    ∀ word, segment = .key word → ∀ char ∈ word.toList, Kept char := by
  cases segment with
  | field word => simp [PathSegment.reread]
  | index number => simp [PathSegment.reread]
  | key word => simp [PathSegment.reread, PathToken.reread_eq_iff]

theorem reread_eq_iff {reference : Reference} : reference.reread = reference ↔
    ∀ word, .key word ∈ reference.segments → ∀ char ∈ word.toList, Kept char := by
  have same : reference.reread = reference ↔
      ∀ segment ∈ reference.segments, segment.reread = segment := by
    have whole := List.map_inj_left (l := reference.segments) (f := PathSegment.reread) (g := id)
    rw [List.map_id] at whole
    obtain ⟨root, segments⟩ := reference
    rw [reread, Reference.mk.injEq, whole]
    simp
  rw [same]
  constructor
  · intro each word member
    exact reread_segment_iff.1 (each _ member) word rfl
  · intro each segment member
    apply reread_segment_iff.2
    intro word shape
    exact each word (shape ▸ member)

/-- The text of a reference that was read can be read again. It gives the same reference if and only
if no key holds a control character other than a line feed or a tab. -/
theorem text_reads_back {text : String} {reference : Reference} (said : read text = .ok reference) :
    read reference.text = .ok reference.reread ∧
      (read reference.text = .ok reference ↔
        ∀ word, .key word ∈ reference.segments → ∀ char ∈ word.toList, Kept char) := by
  have again := read_text (read_at_ok_iff.1 said)
  refine ⟨again, ?_⟩
  rw [again, Except.ok.injEq]
  exact reread_eq_iff

theorem text_reads_back_sample :
    read "rows[ 07 ]['it\\'s\t']" = .ok ⟨"rows", [.index 7, .key "it's\t"]⟩ ∧
      read "rows[7][\"it's\\t\"]" = .ok ⟨"rows", [.index 7, .key "it's\t"]⟩ := by
  have said : read "rows[ 07 ]['it\\'s\t']" = .ok ⟨"rows", [.index 7, .key "it's\t"]⟩ := by
    decide +kernel
  refine ⟨said, ?_⟩
  have shown :
      text ⟨"rows", [.index 7, .key "it's\t"]⟩ = "rows[7][\"it's\\t\"]" := by decide +kernel
  rw [← shown]
  apply (text_reads_back said).2.2
  intro word member
  simp only [List.mem_cons, reduceCtorEq, PathSegment.key.injEq, List.not_mem_nil, or_false,
    false_or] at member
  subst member
  have kept : ("it's\t".toList.all fun char => Kept char) = true := by decide
  exact fun char member => of_decide_eq_true (List.all_eq_true.1 kept char member)

/-- A return in a key is shown by an escape that is read as a letter. -/
theorem return_read_as_letter :
    ¬∀ (text : String) (reference : Reference), read text = .ok reference →
      read reference.text = .ok reference := by
  intro always
  have said : read "a[\"\r\"]" = .ok ⟨"a", [.key "\r"]⟩ := by decide +kernel
  have again : read (Reference.text ⟨"a", [.key "\r"]⟩) = .ok ⟨"a", [.key "r"]⟩ := by decide +kernel
  have other := always _ _ said
  rw [again, Except.ok.injEq] at other
  exact absurd other (by decide)

end Reference
end PageBuilder
