import PageBuilder.Proofs.Code.Balanced
import PageBuilder.Proofs.Code.Wrapped
import PageBuilder.Proofs.Scope
import PageBuilder.Reference.Basic

/-!
Flat code: code of one line that opens nothing which it does not close, and ends in code again. What
is written for values is flat, whatever the texts in it say.
-/

namespace PageBuilder.Code
namespace Layout

/-- The text leaves the place and the levels as they are. -/
def Keeps (place : Place) (chars : List Char) : Prop :=
  ∀ movement, Reading.run ⟨place, movement⟩ chars = some ⟨place, movement⟩

structure Flat (chars : List Char) : Prop where
  unbroken : '\n' ∉ chars
  keeps : Keeps .code chars

theorem Flat.leads {chars : List Char} (flat : Flat chars) : Leads 0 chars := flat.keeps

theorem Flat.sound {chars : List Char} (flat : Flat chars) : Sound chars := flat.leads.sound

theorem Flat.sound_behind {front back : List Char} (flat : Flat front) (sound : Sound back) :
    Sound (front ++ back) := flat.leads.sound_behind sound

theorem flat_iff {chars : List Char} : Flat chars ↔
    '\n' ∉ chars ∧ Reading.run ⟨.code, .still⟩ chars = some ⟨.code, .still⟩ := by
  refine ⟨fun flat => ⟨flat.unbroken, flat.keeps .still⟩, fun read => ⟨read.1, fun movement => ?_⟩⟩
  rw [Reading.run_from_still read.2, Movement.and_then_still]

instance (chars : List Char) : Decidable (Flat chars) := decidable_of_iff _ flat_iff.symm

theorem Keeps.append {place : Place} {front back : List Char} (first : Keeps place front)
    (second : Keeps place back) : Keeps place (front ++ back) := by
  intro movement
  rw [Reading.run_append, first, Option.bind_some, second]

theorem keeps_flat_map {Item : Type} {place : Place} {items : List Item}
    {written : Item → List Char} (each : ∀ item ∈ items, Keeps place (written item)) :
    Keeps place (items.flatMap written) := by
  induction items with
  | nil => exact fun _ => rfl
  | cons item rest ih =>
      rw [List.flatMap_cons]
      exact (each item List.mem_cons_self).append
        (ih fun other member => each other (List.mem_cons_of_mem _ member))

theorem flat_nil : Flat [] := ⟨List.not_mem_nil, fun _ => rfl⟩

theorem Flat.append {front back : List Char} (first : Flat front) (second : Flat back) :
    Flat (front ++ back) := by
  refine ⟨fun member => ?_, first.keeps.append second.keeps⟩
  exact (List.mem_append.1 member).elim first.unbroken second.unbroken

theorem flat_flat_map {Item : Type} {items : List Item} {written : Item → List Char}
    (each : ∀ item ∈ items, Flat (written item)) : Flat (items.flatMap written) := by
  refine ⟨?_, keeps_flat_map fun item member => (each item member).keeps⟩
  rw [List.mem_flatMap]
  rintro ⟨item, member, feed⟩
  exact (each item member).unbroken feed

def Neutral (chars : List Char) : Prop := ∀ char ∈ chars, isNeutral char = true

-- Named, since the search for an instance could end in one that goes through all characters.
instance (chars : List Char) : Decidable (Neutral chars) := List.decidableBAll _ chars

theorem flat_of_neutral {chars : List Char} (neutral : Neutral chars) : Flat chars := by
  refine ⟨fun member => ?_, leads_of_neutral neutral⟩
  exact absurd (neutral _ member) (by decide)

theorem Flat.enclosed {opening closing : Char} {chars : List Char} (flat : Flat chars)
    (opens : isOpening opening = true) (closes : isClosing closing = true) :
    Flat (opening :: (chars ++ [closing])) := by
  refine ⟨?_, flat.sound.enclosed opens closes⟩
  simp only [List.mem_cons, List.mem_append, not_or]
  refine ⟨?_, flat.unbroken, ?_, List.not_mem_nil⟩
  · rintro rfl
    exact absurd opens (by decide)
  · rintro rfl
    exact absurd closes (by decide)

theorem flat_joined {separator : List Char} (apart : Flat separator) {pieces : List (List Char)}
    (each : ∀ piece ∈ pieces, Flat piece) : Flat (JsonTree.joined separator pieces) := by
  induction pieces with
  | nil => exact flat_nil
  | cons piece rest ih =>
      have first := each piece List.mem_cons_self
      have later := ih fun other member => each other (List.mem_cons_of_mem _ member)
      cases rest with
      | nil => exact first
      | cons next rest => exact (first.append apart).append later

theorem neutral_of_part {char : Char} (part : Identifier.isPart char = true) :
    isNeutral char = true := by
  have other {mark : Char} (outside : Identifier.isPart mark = false) : char ≠ mark := by
    rintro rfl
    rw [part] at outside
    cases outside
  simp [isNeutral, isQuote, isOpening, isClosing, @other '"' (by decide), @other '\'' (by decide),
    @other '`' (by decide), @other '(' (by decide), @other '\x7b' (by decide),
    @other '[' (by decide), @other ')' (by decide), @other '\x7d' (by decide),
    @other ']' (by decide), @other '/' (by decide), @other '\n' (by decide)]

theorem neutral_identifier {name : String} (valid : Identifier.isValid name = true) :
    Neutral name.toList :=
  fun _ member => neutral_of_part (Identifier.is_part_of_valid valid member)

theorem flat_identifier {name : String} (valid : Identifier.isValid name = true) :
    Flat name.toList := flat_of_neutral (neutral_identifier valid)

theorem Neutral.append {front back : List Char} (first : Neutral front) (second : Neutral back) :
    Neutral (front ++ back) := List.forall_mem_append.2 ⟨first, second⟩

theorem Neutral.of_subset {chars part : List Char} (neutral : Neutral chars)
    (inside : part ⊆ chars) : Neutral part := fun char member => neutral char (inside member)

theorem neutral_digits (value : Nat) : Neutral (Nat.toDigits 10 value) :=
  fun _ member => neutral_of_part
    (Identifier.is_part_of_digit (Nat.isDigit_of_mem_toDigits (by omega) (by omega) member))

theorem neutral_nat (value : Nat) : Neutral (toString value).toList := by
  rw [Nat.toString_eq_repr, Nat.repr_eq_ofList_toDigits, String.toList_ofList]
  exact neutral_digits value

theorem neutral_int (value : Int) : Neutral (toString value).toList := by
  rw [Int.toString_eq_repr, Int.repr_eq_if]
  split
  · exact neutral_nat value.toNat
  · rw [String.toList_append]
    exact Neutral.append (by decide) (neutral_nat (-value).toNat)

theorem neutral_zeros (count : Nat) : Neutral (Decimal.zeros count).toList := by
  rw [Decimal.zeros, String.toList_ofList]
  intro char member
  rw [List.eq_of_mem_replicate member]
  decide

theorem neutral_positional {digits : List Char} (neutral : Neutral digits) (lead : Int) :
    Neutral (Decimal.positionalText digits lead).toList := by
  have point : Neutral ".".toList := by decide
  unfold Decimal.positionalText
  split
  · simp only [String.toList_append, String.toList_ofList]
    exact (Neutral.append (by decide) (neutral_zeros _)).append neutral
  · dsimp only
    split
    · simp only [String.toList_append, String.toList_ofList]
      exact (neutral.append (neutral_zeros _)).append (by decide)
    · simp only [String.toList_append, String.toList_ofList]
      exact ((neutral.of_subset (List.take_subset _ _)).append point).append
        (neutral.of_subset (List.drop_subset _ _))

theorem neutral_exponent {digits : List Char} (neutral : Neutral digits) (lead : Int) :
    Neutral (Decimal.exponentText JsonNumber.spelling digits lead).toList := by
  have sign : Neutral (if lead < 0 then "-" else JsonNumber.spelling.plus).toList := by
    split <;> decide
  have point : Neutral (if digits.length ≤ 1 then "" else ".").toList := by
    split <;> decide
  unfold Decimal.exponentText
  simp only [String.toList_append, String.toList_ofList]
  have whole := (neutral.of_subset (List.take_subset 1 digits)).append point
  have fraction := whole.append (neutral.of_subset (List.drop_subset 1 digits))
  exact ((fraction.append (by decide)).append sign).append (neutral_digits _)

theorem neutral_number (number : JsonNumber) : Neutral number.text.toList := by
  cases number with
  | int value inRange => exact neutral_int value
  | float value =>
      rw [JsonNumber.text, Decimal.Binary64.text, String.toList_append, Decimal.magnitudeText]
      refine Neutral.append (by split <;> decide) ?_
      split
      · decide
      · dsimp only
        split
        · exact neutral_positional (neutral_digits _) _
        · exact neutral_exponent (neutral_digits _) _

theorem hex_plain (value : Nat) (small : value < 16) :
    isNeutral (Text.hexDigit value) = true ∧ Text.hexDigit value ≠ '\\' := by
  have all : ∀ value < 16,
      isNeutral (Text.hexDigit value) = true ∧ Text.hexDigit value ≠ '\\' := by decide
  exact all value small

/-- Between two marks a text goes on until the mark comes, and a backslash hides what follows it. -/
structure Holds (place : Place) (mark : Char) : Prop where
  escape : ∀ {next : Char}, next ≠ '\n' → Keeps place ['\\', next]
  plain : ∀ {char : Char}, char ≠ '\n' → char ≠ '\\' → char ≠ mark → Keeps place [char]
  marks : isNeutral mark = false

theorem quoted_holds {quote : Char} (proper : isQuote quote = true) :
    Holds (.quoted quote false) quote := by
  refine ⟨fun {next} notFeed movement => ?_, fun {char} notFeed literal inside movement => ?_, ?_⟩
  · have escaped : Reading.step ⟨.quoted quote false, movement⟩ '\\' =
        some ⟨.quoted quote true, movement⟩ := rfl
    rw [Reading.run_cons, escaped, Option.bind_some, Reading.run_cons,
      Reading.step_quoted_escaped notFeed]
    rfl
  · rw [Reading.run_cons, Reading.step_quoted notFeed movement literal, if_neg inside]
    rfl
  · simp [isNeutral, proper]

theorem template_holds : Holds (.template false) '`' := by
  refine ⟨fun {next} _ movement => ?_, fun {char} notFeed literal inside movement => ?_, by decide⟩
  · have escaped : Reading.step ⟨.template false, movement⟩ '\\' =
        some ⟨.template true, movement⟩ := rfl
    rw [Reading.run_cons, escaped, Option.bind_some, Reading.run_cons,
      Reading.step_template_escaped]
    rfl
  · rw [Reading.run_cons, Reading.step_template notFeed movement literal, if_neg inside]
    rfl

namespace Holds

variable {place : Place} {mark : Char} (holds : Holds place mark)

include holds

theorem keeps {chars : List Char}
    (plain : ∀ char ∈ chars, char ≠ '\n' ∧ char ≠ '\\' ∧ char ≠ mark) : Keeps place chars := by
  have each := keeps_flat_map fun char member =>
    holds.plain (plain char member).1 (plain char member).2.1 (plain char member).2.2
  rwa [List.flatMap_singleton'] at each

theorem keeps_neutral {chars : List Char} (neutral : Neutral chars) (literal : '\\' ∉ chars) :
    Keeps place chars := by
  refine holds.keeps fun char member => ⟨?_, ?_, ?_⟩
  · rintro rfl
    exact absurd (neutral _ member) (by decide)
  · rintro rfl
    exact literal member
  · rintro rfl
    have marks := holds.marks
    rw [neutral _ member] at marks
    cases marks

theorem keeps_escaped {char : Char} (inside : char ≠ '"' → char ≠ mark) :
    Keeps place (JsonTree.escapedChar char) := by
  unfold JsonTree.escapedChar
  split_ifs with quote slash back page feed carriage tab control
  · exact holds.escape (by decide)
  · exact holds.escape (by decide)
  · exact holds.escape (by decide)
  · exact holds.escape (by decide)
  · exact holds.escape (by decide)
  · exact holds.escape (by decide)
  · exact holds.escape (by decide)
  · obtain ⟨high, highPlain⟩ := hex_plain (char.toNat / 16) (by omega)
    obtain ⟨low, lowPlain⟩ := hex_plain (char.toNat % 16) (by omega)
    have digits : Neutral ['0', '0', Text.hexDigit (char.toNat / 16),
        Text.hexDigit (char.toNat % 16)] := by
      simpa [Neutral, high, low] using (by decide : isNeutral '0' = true)
    have hidden : Keeps place ['\\', 'u'] := holds.escape (by decide)
    refine hidden.append (holds.keeps_neutral digits ?_)
    simp [highPlain.symm, lowPlain.symm]
  · exact holds.plain feed slash (inside quote)

end Holds

theorem string_enclosed (text : String) :
    JsonTree.stringChars text = '"' :: (text.toList.flatMap JsonTree.escapedChar ++ ['"']) := rfl

theorem flat_string (text : String) : Flat (Json.stringText text).toList := by
  refine ⟨string_text_unbroken text, fun movement => ?_⟩
  have opened : Reading.step ⟨.code, movement⟩ '"' = some ⟨.quoted '"' false, movement⟩ := rfl
  have held : Keeps (.quoted '"' false) (text.toList.flatMap JsonTree.escapedChar) :=
    keeps_flat_map fun char _ => (quoted_holds (by decide)).keeps_escaped id
  rw [Json.stringText, String.toList_ofList, string_enclosed, Reading.run_cons, opened,
    Option.bind_some, Reading.run_append, held]
  rfl

theorem template_keeps_string {text : String} (clean : '`' ∉ text.toList) :
    Keeps (.template false) (Json.stringText text).toList := by
  have quote : Keeps (.template false) ['"'] :=
    template_holds.plain (by decide) (by decide) (by decide)
  have held : Keeps (.template false) (text.toList.flatMap JsonTree.escapedChar) := by
    refine keeps_flat_map fun char member => template_holds.keeps_escaped fun _ => ?_
    rintro rfl
    exact clean member
  rw [Json.stringText, String.toList_ofList, string_enclosed]
  exact quote.append (held.append quote)

mutual

theorem flat_compact : ∀ tree : JsonTree, Flat tree.compactChars
  | .null => flat_of_neutral (by decide)
  | .bool true => flat_of_neutral (by decide)
  | .bool false => flat_of_neutral (by decide)
  | .number value => flat_of_neutral (neutral_number value)
  | .string text => by
      have flat := flat_string text
      rwa [Json.stringText, String.toList_ofList] at flat
  | .array items => by
      have inside := flat_joined (flat_of_neutral (by decide : Neutral [','])) (flat_items items)
      exact inside.enclosed (by decide) (by decide)
  | .object fields => by
      have inside := flat_joined (flat_of_neutral (by decide : Neutral [','])) (flat_fields fields)
      exact inside.enclosed (by decide) (by decide)

theorem flat_items : ∀ items : List JsonTree,
    ∀ piece ∈ JsonTree.compactItems items, Flat piece
  | [], _, member => absurd member List.not_mem_nil
  | item :: rest, piece, member => by
      rcases List.mem_cons.1 member with rfl | later
      · exact flat_compact item
      · exact flat_items rest piece later

theorem flat_fields : ∀ fields : List (String × JsonTree),
    ∀ piece ∈ JsonTree.compactFields fields, Flat piece
  | [], _, member => absurd member List.not_mem_nil
  | (name, value) :: rest, piece, member => by
      rcases List.mem_cons.1 member with rfl | later
      · have named := flat_string name
        rw [Json.stringText, String.toList_ofList] at named
        have colon : Flat [':'] := flat_of_neutral (by decide)
        exact named.append (colon.append (flat_compact value))
      · exact flat_fields rest piece later

end

theorem flat_json (value : Json) : Flat value.text.toList := by
  rw [Json.text, JsonTree.compact, String.toList_ofList]
  exact flat_compact value.tree

end Layout
end PageBuilder.Code
