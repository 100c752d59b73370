import PageBuilder.Proofs.Json.Float
import Mathlib.Data.List.Forall2

/-!
What the texts of a tree are, with blanks wherever a text may have them, and that each of them is
read back as the tree, but for its floats, which are read as numbers again. Both printed forms are
such texts.
-/

namespace PageBuilder

def JsonNumber.reread : JsonNumber → JsonNumber
  | .int value inRange => .int value inRange
  | .float value => Json.rereadFloat value

namespace JsonTree

mutual

/-- A tree as it is read where it was printed. -/
def reread : JsonTree → JsonTree
  | .null => .null
  | .bool value => .bool value
  | .number value => .number value.reread
  | .string value => .string value
  | .array items => .array (rereadItems items)
  | .object fields => .object (rereadFields fields)

def rereadItems : List JsonTree → List JsonTree
  | [] => []
  | item :: rest => reread item :: rereadItems rest

def rereadFields : List (String × JsonTree) → List (String × JsonTree)
  | [] => []
  | (name, value) :: rest => (name, reread value) :: rereadFields rest

end

end JsonTree

namespace Json

open JsonTree (stringChars joined)

def Blank (chars : List Char) : Prop := ∀ char ∈ chars, isSpace char = true

theorem Blank.nil : Blank [] := fun _ absent => absurd absent List.not_mem_nil

theorem skip_none {char : Char} (solid : isSpace char = false) (rest : List Char) :
    skipSpace (char :: rest) = char :: rest := by
  rw [skipSpace, List.dropWhile_cons_of_neg (by simp [solid])]

variable {blanks : List Char}

theorem skip_blanks (blank : Blank blanks) (rest : List Char) :
    skipSpace (blanks ++ rest) = skipSpace rest :=
  List.dropWhile_append_of_pos blank

theorem EndsNumber.after (blank : Blank blanks) {rest : List Char} (ends : EndsNumber rest) :
    EndsNumber (blanks ++ rest) := by
  cases blanks with
  | nil => exact ends
  | cons char blanks =>
      have space := blank char List.mem_cons_self
      simp only [isSpace, Bool.or_eq_true, decide_eq_true_eq] at space
      rcases space with ((rfl | rfl) | rfl) | rfl <;>
        exact ⟨by decide, by decide, by decide, by decide⟩

theorem EndsNumber.comma (rest : List Char) : EndsNumber (',' :: rest) :=
  ⟨rfl, by decide, by decide, by decide⟩

theorem EndsNumber.bracket (rest : List Char) : EndsNumber (']' :: rest) :=
  ⟨rfl, by decide, by decide, by decide⟩

theorem EndsNumber.brace (rest : List Char) : EndsNumber ('\x7d' :: rest) :=
  ⟨rfl, by decide, by decide, by decide⟩

theorem read_value_blanks (fuel : Nat) (blank : Blank blanks) (chars : List Char) :
    readValue fuel (blanks ++ chars) = readValue fuel chars := by
  cases fuel with
  | zero => rw [readValue, readValue]
  | succ fuel => rw [readValue, readValue, skip_blanks blank]

theorem read_items_blanks (fuel : Nat) (blank : Blank blanks) (chars : List Char) :
    readItems fuel (blanks ++ chars) = readItems fuel chars := by
  cases fuel with
  | zero => rw [readItems, readItems]
  | succ fuel => rw [readItems, readItems, read_value_blanks fuel blank]

theorem read_fields_blanks (fuel : Nat) (blank : Blank blanks) (chars : List Char) :
    readFields fuel (blanks ++ chars) = readFields fuel chars := by
  cases fuel with
  | zero => rw [readFields, readFields]
  | succ fuel => rw [readFields, readFields, readName, readName, skip_blanks blank]

/-- What a stretch of a text is about: a value, or the rest of an array or object up to the closing
bracket, with at least one item or field in it. -/
inductive Part where
  | value (tree : JsonTree)
  | items (trees : List JsonTree)
  | fields (entries : List (String × JsonTree))

inductive Spells : Part → List Char → Prop
  | null : Spells (.value .null) ['n', 'u', 'l', 'l']
  | yes : Spells (.value (.bool true)) ['t', 'r', 'u', 'e']
  | no : Spells (.value (.bool false)) ['f', 'a', 'l', 's', 'e']
  | int (value : Int)
      (inRange : -0x8000000000000000 ≤ value ∧ value < 0x10000000000000000) :
      Spells (.value (.number (.int value inRange))) (toString value).toList
  | float (value : Decimal.Binary64) :
      Spells (.value (.number (.float value))) (JsonNumber.float value).text.toList
  | string (text : String) : Spells (.value (.string text)) (stringChars text)
  | noItems : Spells (.value (.array [])) ['[', ']']
  | array {trees : List JsonTree} {blanks chars : List Char} (blank : Blank blanks)
      (items : Spells (.items trees) chars) :
      Spells (.value (.array trees)) ('[' :: (blanks ++ chars))
  | noFields : Spells (.value (.object [])) ['\x7b', '\x7d']
  | object {entries : List (String × JsonTree)} {blanks chars : List Char}
      (blank : Blank blanks) (fields : Spells (.fields entries) chars) :
      Spells (.value (.object entries)) ('\x7b' :: (blanks ++ chars))
  | lastItem {tree : JsonTree} {blanks chars : List Char} (item : Spells (.value tree) chars)
      (blank : Blank blanks) : Spells (.items [tree]) (chars ++ (blanks ++ [']']))
  | moreItems {tree : JsonTree} {trees : List JsonTree} {blanks chars others : List Char}
      (item : Spells (.value tree) chars) (blank : Blank blanks)
      (items : Spells (.items trees) others) :
      Spells (.items (tree :: trees)) (chars ++ ',' :: (blanks ++ others))
  | lastField (name : String) {tree : JsonTree} {gap blanks chars : List Char}
      (before : Blank gap) (field : Spells (.value tree) chars) (blank : Blank blanks) :
      Spells (.fields [(name, tree)])
        (stringChars name ++ ':' :: (gap ++ (chars ++ (blanks ++ ['\x7d']))))
  | moreFields (name : String) {tree : JsonTree} {entries : List (String × JsonTree)}
      {gap blanks chars others : List Char} (before : Blank gap)
      (field : Spells (.value tree) chars) (blank : Blank blanks)
      (fields : Spells (.fields entries) others) :
      Spells (.fields ((name, tree) :: entries))
        (stringChars name ++ ':' :: (gap ++ (chars ++ ',' :: (blanks ++ others))))

/-- Neither a blank nor a closing bracket. -/
def Opens (chars : List Char) : Prop :=
  ∃ first rest, chars = first :: rest ∧ isSpace first = false ∧ first ≠ ']' ∧ first ≠ '\x7d'

theorem Opens.append {chars : List Char} (opens : Opens chars) (rest : List Char) :
    Opens (chars ++ rest) := by
  obtain ⟨first, tail, rfl, solid⟩ := opens
  exact ⟨first, tail ++ rest, rfl, solid⟩

theorem int_opens (value : Int) :
    ∃ first rest, (toString value).toList = first :: rest ∧
      (isDigit first = true ∨ first = '-') := by
  rw [Int.toString_eq_repr, Int.repr_eq_if]
  split
  · rw [Nat.repr_eq_ofList_toDigits, String.toList_ofList]
    have digits := digits_of_nat value.toNat
    cases written : Nat.toDigits 10 value.toNat with
    | nil => exact absurd written Nat.toDigits_ne_nil
    | cons first rest =>
        rw [written] at digits
        exact ⟨first, rest, rfl, .inl (digits first List.mem_cons_self)⟩
  · exact ⟨'-', (-value).toNat.repr.toList, by simp, .inr rfl⟩

theorem ne_of_starts {first other : Char} (starts : isDigit first = true ∨ first = '-')
    (digit : isDigit other = false) (minus : other ≠ '-') : first ≠ other := by
  rintro rfl
  rcases starts with starts | starts
  · rw [digit] at starts
    cases starts
  · exact minus starts

theorem solid_of_starts {first : Char} (starts : isDigit first = true ∨ first = '-') :
    isSpace first = false := by
  simp only [isSpace, Bool.or_eq_false_iff, decide_eq_false_iff_not]
  exact ⟨⟨⟨ne_of_starts starts rfl (by decide), ne_of_starts starts rfl (by decide)⟩,
    ne_of_starts starts rfl (by decide)⟩, ne_of_starts starts rfl (by decide)⟩

theorem Spells.opens {part : Part} {chars : List Char} (spells : Spells part chars) :
    Opens chars := by
  induction spells with
  | null => exact ⟨_, _, rfl, by decide⟩
  | yes => exact ⟨_, _, rfl, by decide⟩
  | no => exact ⟨_, _, rfl, by decide⟩
  | int value inRange =>
      obtain ⟨first, rest, written, starts⟩ := int_opens value
      exact ⟨first, rest, written, solid_of_starts starts, ne_of_starts starts rfl (by decide),
        ne_of_starts starts rfl (by decide)⟩
  | float value =>
      obtain ⟨first, rest, written, starts⟩ := float_opens value
      exact ⟨first, rest, written, solid_of_starts starts, ne_of_starts starts rfl (by decide),
        ne_of_starts starts rfl (by decide)⟩
  | string text => exact ⟨_, _, rfl, by decide⟩
  | noItems => exact ⟨_, _, rfl, by decide⟩
  | array => exact ⟨_, _, rfl, by decide⟩
  | noFields => exact ⟨_, _, rfl, by decide⟩
  | object => exact ⟨_, _, rfl, by decide⟩
  | lastItem _ _ ih => exact ih.append _
  | moreItems _ _ _ ih _ => exact ih.append _
  | lastField => exact ⟨_, _, rfl, by decide⟩
  | moreFields => exact ⟨_, _, rfl, by decide⟩

/-- What it means that a stretch of a text is read as what it is about, with `fuel` for its
length. -/
def ReadsBack : Part → List Char → Prop
  | .value tree, chars => ∀ fuel rest, 2 * chars.length ≤ fuel → EndsNumber rest →
      readValue fuel (chars ++ rest) = some (.ofTree tree.reread, rest)
  | .items trees, chars => ∀ fuel rest, 2 * chars.length + 1 ≤ fuel →
      readItems fuel (chars ++ rest) = some (Written.ofItems (JsonTree.rereadItems trees), rest)
  | .fields entries, chars => ∀ fuel rest, 2 * chars.length + 1 ≤ fuel →
      readFields fuel (chars ++ rest) =
        some (Written.ofFields (JsonTree.rereadFields entries), rest)

theorem read_value_number (fuel : Nat) {first : Char}
    (starts : isDigit first = true ∨ first = '-') (rest : List Char) :
    readValue (fuel + 1) (first :: rest) = (readNumeral (first :: rest)).map fun read =>
      (.number read.1.number?, read.2) := by
  have apart {other : Char} {tail : List Char} (same : first :: rest = other :: tail)
      (digit : isDigit other = false) (minus : other ≠ '-') : False :=
    ne_of_starts starts digit minus (List.cons.inj same).1
  rw [readValue, skip_none (solid_of_starts starts)]
  split
  · rename_i same
    exact (apart same rfl (by decide)).elim
  · rename_i same
    exact (apart same rfl (by decide)).elim
  · rename_i same
    exact (apart same rfl (by decide)).elim
  · rename_i same
    exact (apart same rfl (by decide)).elim
  · rename_i same
    exact (apart same rfl (by decide)).elim
  · rename_i same
    exact (apart same rfl (by decide)).elim
  · cases readNumeral (first :: rest) <;> rfl

theorem read_value_string (fuel : Nat) (text : String) (rest : List Char) :
    readValue (fuel + 1) (stringChars text ++ rest) = some (.string (some text), rest) := by
  obtain ⟨chars, written, read⟩ := read_string_chars text rest
  rw [written, readValue, skip_none rfl]
  simp only [read]
  rfl

theorem read_name_string (name : String) (rest : List Char) :
    readName (stringChars name ++ ':' :: rest) = some (some name, rest) := by
  obtain ⟨chars, written, read⟩ := read_string_chars name (':' :: rest)
  rw [written, readName, skip_none rfl]
  simp only [read]
  rfl

theorem read_value_array (fuel : Nat) {blanks chars rest : List Char} (blank : Blank blanks)
    (opens : Opens chars) :
    readValue (fuel + 1) ('[' :: (blanks ++ chars) ++ rest) =
      (readItems fuel (chars ++ rest)).map fun read => (.array read.1, read.2) := by
  obtain ⟨first, tail, rfl, solid, notClosing, _⟩ := opens
  rw [List.cons_append, List.append_assoc, readValue, skip_none rfl]
  simp only [skip_blanks blank, List.cons_append, skip_none solid]
  split
  · rename_i same
    exact absurd (List.cons.inj same).1 notClosing
  · cases readItems fuel (first :: (tail ++ rest)) <;> rfl

theorem read_value_object (fuel : Nat) {blanks chars rest : List Char} (blank : Blank blanks)
    (opens : Opens chars) :
    readValue (fuel + 1) ('\x7b' :: (blanks ++ chars) ++ rest) =
      (readFields fuel (chars ++ rest)).map fun read => (.object read.1, read.2) := by
  obtain ⟨first, tail, rfl, solid, _, notClosing⟩ := opens
  rw [List.cons_append, List.append_assoc, readValue, skip_none rfl]
  simp only [skip_blanks blank, List.cons_append, skip_none solid]
  split
  · rename_i same
    exact absurd (List.cons.inj same).1 notClosing
  · cases readFields fuel (first :: (tail ++ rest)) <;> rfl

theorem read_items_last (fuel : Nat) {chars blanks rest : List Char} {item : Written}
    (blank : Blank blanks)
    (read : readValue fuel (chars ++ (blanks ++ ']' :: rest)) =
      some (item, blanks ++ ']' :: rest)) :
    readItems (fuel + 1) (chars ++ (blanks ++ ']' :: rest)) = some ([item], rest) := by
  rw [readItems, read]
  dsimp only [bind, Option.bind]
  rw [skip_blanks blank, skip_none rfl]
  rfl

theorem read_items_more (fuel : Nat) {chars blanks others rest : List Char} {item : Written}
    {items : List Written} (blank : Blank blanks)
    (read : readValue fuel (chars ++ ',' :: (blanks ++ others)) =
      some (item, ',' :: (blanks ++ others)))
    (more : readItems fuel others = some (items, rest)) :
    readItems (fuel + 1) (chars ++ ',' :: (blanks ++ others)) = some (item :: items, rest) := by
  rw [readItems, read]
  dsimp only [bind, Option.bind]
  rw [skip_none rfl]
  simp only [read_items_blanks fuel blank, more]

theorem read_fields_last (fuel : Nat) (name : String) {gap chars blanks rest : List Char}
    {value : Written} (before : Blank gap) (blank : Blank blanks)
    (read : readValue fuel (chars ++ (blanks ++ '\x7d' :: rest)) =
      some (value, blanks ++ '\x7d' :: rest)) :
    readFields (fuel + 1)
        (stringChars name ++ ':' :: (gap ++ (chars ++ (blanks ++ '\x7d' :: rest)))) =
      some ([(some name, value)], rest) := by
  rw [readFields, read_name_string]
  dsimp only [bind, Option.bind]
  rw [read_value_blanks fuel before, read]
  dsimp only
  rw [skip_blanks blank, skip_none rfl]
  rfl

theorem read_fields_more (fuel : Nat) (name : String) {gap chars blanks others rest : List Char}
    {value : Written} {fields : List (Option String × Written)} (before : Blank gap)
    (blank : Blank blanks)
    (read : readValue fuel (chars ++ ',' :: (blanks ++ others)) =
      some (value, ',' :: (blanks ++ others)))
    (more : readFields fuel others = some (fields, rest)) :
    readFields (fuel + 1)
        (stringChars name ++ ':' :: (gap ++ (chars ++ ',' :: (blanks ++ others)))) =
      some ((some name, value) :: fields, rest) := by
  rw [readFields, read_name_string]
  dsimp only [bind, Option.bind]
  rw [read_value_blanks fuel before, read]
  dsimp only
  rw [skip_none rfl]
  simp only [read_fields_blanks fuel blank, more]

theorem fuel_left {count fuel : Nat} (enough : 2 * (count + 1) ≤ fuel) :
    ∃ less, fuel = less + 1 ∧ 2 * count + 1 ≤ less :=
  ⟨fuel - 1, by omega, by omega⟩

/-- Every text of a tree is read back, by induction on how it is spelled. -/
theorem Spells.read_back {part : Part} {chars : List Char} (spells : Spells part chars) :
    ReadsBack part chars := by
  -- A nested reader has one unit of fuel less, and two units for each character are enough: one for
  -- a value and one for the list in which it stands.
  induction spells with
  | null | yes | no | noItems | noFields =>
      intro fuel rest enough _
      obtain ⟨fuel, rfl, _⟩ := fuel_left enough
      rw [List.cons_append, readValue, skip_none rfl]
      rfl
  | int value inRange =>
      intro fuel rest enough ends
      obtain ⟨first, tail, written, starts⟩ := int_opens value
      obtain ⟨numeral, read, number⟩ := read_int inRange ends
      rw [written] at enough read ⊢
      obtain ⟨fuel, rfl, _⟩ := fuel_left enough
      rw [List.cons_append] at read ⊢
      rw [read_value_number fuel starts, read, Option.map_some, number]
      rfl
  | float value =>
      intro fuel rest enough ends
      obtain ⟨first, tail, written, starts⟩ := float_opens value
      obtain ⟨read, number⟩ := read_float value ends
      rw [written] at enough read ⊢
      obtain ⟨fuel, rfl, _⟩ := fuel_left enough
      rw [List.cons_append] at read ⊢
      rw [read_value_number fuel starts, read, Option.map_some, number]
      rfl
  | string text =>
      intro fuel rest enough _
      obtain ⟨fuel, rfl, _⟩ := fuel_left enough
      exact read_value_string fuel text rest
  | array blank items ih =>
      intro fuel rest enough _
      obtain ⟨fuel, rfl, left⟩ := fuel_left enough
      rw [List.length_append] at left
      rw [read_value_array fuel blank items.opens, ih fuel rest (by omega)]
      rfl
  | object blank fields ih =>
      intro fuel rest enough _
      obtain ⟨fuel, rfl, left⟩ := fuel_left enough
      rw [List.length_append] at left
      rw [read_value_object fuel blank fields.opens, ih fuel rest (by omega)]
      rfl
  | lastItem item blank ih =>
      intro fuel rest enough
      simp only [List.length_append] at enough
      obtain ⟨fuel, rfl⟩ := Nat.exists_eq_add_one.2 (by omega : 0 < fuel)
      rw [List.append_assoc, List.append_assoc]
      exact read_items_last fuel blank (ih fuel _ (by omega) (.after blank (.bracket rest)))
  | moreItems item blank items ih more =>
      intro fuel rest enough
      simp only [List.length_append, List.length_cons] at enough
      obtain ⟨fuel, rfl⟩ := Nat.exists_eq_add_one.2 (by omega : 0 < fuel)
      rw [List.append_assoc, List.cons_append, List.append_assoc]
      exact read_items_more fuel blank (ih fuel _ (by omega) (.comma _))
        (more fuel rest (by omega))
  | lastField name before field blank ih =>
      intro fuel rest enough
      simp only [List.length_append, List.length_cons] at enough
      obtain ⟨fuel, rfl⟩ := Nat.exists_eq_add_one.2 (by omega : 0 < fuel)
      rw [List.append_assoc, List.cons_append, List.append_assoc, List.append_assoc,
        List.append_assoc]
      exact read_fields_last fuel name before blank
        (ih fuel _ (by omega) (.after blank (.brace rest)))
  | moreFields name before field blank fields ih more =>
      intro fuel rest enough
      simp only [List.length_append, List.length_cons] at enough
      obtain ⟨fuel, rfl⟩ := Nat.exists_eq_add_one.2 (by omega : 0 < fuel)
      rw [List.append_assoc, List.cons_append, List.append_assoc, List.append_assoc,
        List.cons_append, List.append_assoc]
      exact read_fields_more fuel name before blank (ih fuel _ (by omega) (.comma _))
        (more fuel rest (by omega))

/-- A text that spells a tree, and nothing after it, is read back. -/
theorem Spells.read {tree : JsonTree} {chars : List Char} (spells : Spells (.value tree) chars) :
    read? (String.ofList chars) = some (.ofTree tree.reread) := by
  have read := spells.read_back (2 * chars.length + 2) [] (by omega) trivial
  rw [List.append_nil] at read
  rw [read?, String.toList_ofList]
  dsimp only [bind, Option.bind]
  rw [read]
  rfl

theorem spells_items {blanks closing : List Char} (blank : Blank blanks) (last : Blank closing)
    {trees : List JsonTree} {pieces : List (List Char)}
    (spelled : List.Forall₂ (fun tree piece => Spells (.value tree) piece) trees pieces)
    (nonempty : trees ≠ []) :
    Spells (.items trees) (joined (',' :: blanks) pieces ++ (closing ++ [']'])) := by
  induction spelled with
  | nil => exact absurd rfl nonempty
  | cons item rest ih =>
      cases rest with
      | nil => exact .lastItem item last
      | cons next rest =>
          have more := ih (List.cons_ne_nil _ _)
          have spells := Spells.moreItems item blank more
          rw [joined]
          · simpa only [List.append_assoc, List.cons_append] using spells
          · exact List.cons_ne_nil _ _

def SpellsField (field : String × JsonTree) (piece : List Char) : Prop :=
  ∃ gap chars, Blank gap ∧ Spells (.value field.2) chars ∧
    piece = stringChars field.1 ++ ':' :: (gap ++ chars)

theorem spells_fields {blanks closing : List Char} (blank : Blank blanks) (last : Blank closing)
    {entries : List (String × JsonTree)} {pieces : List (List Char)}
    (spelled : List.Forall₂ SpellsField entries pieces) (nonempty : entries ≠ []) :
    Spells (.fields entries) (joined (',' :: blanks) pieces ++ (closing ++ ['\x7d'])) := by
  induction spelled with
  | nil => exact absurd rfl nonempty
  | @cons field piece entries pieces written rest ih =>
      obtain ⟨gap, chars, before, spells, rfl⟩ := written
      cases rest with
      | nil =>
          have spelled := Spells.lastField field.1 before spells last
          simpa only [joined, List.append_assoc, List.cons_append] using spelled
      | cons next rest =>
          have more := ih (List.cons_ne_nil _ _)
          have spelled := Spells.moreFields field.1 before spells blank more
          rw [joined]
          · simpa only [List.append_assoc, List.cons_append] using spelled
          · exact List.cons_ne_nil _ _

end Json

namespace JsonTree

mutual

def hasFloat : JsonTree → Bool
  | .number (.float _) => true
  | .array items => hasFloatItems items
  | .object fields => hasFloatFields fields
  | _ => false

def hasFloatItems : List JsonTree → Bool
  | [] => false
  | item :: rest => hasFloat item || hasFloatItems rest

def hasFloatFields : List (String × JsonTree) → Bool
  | [] => false
  | (_, value) :: rest => hasFloat value || hasFloatFields rest

end

open Json

mutual

theorem compact_spells : ∀ tree : JsonTree, Spells (.value tree) tree.compactChars
  | .null => .null
  | .bool true => .yes
  | .bool false => .no
  | .number (.int value inRange) => .int value inRange
  | .number (.float value) => .float value
  | .string text => .string text
  | .array [] => .noItems
  | .array (item :: items) => by
      have pieces := compact_items_spell (item :: items)
      have spelled := Spells.array .nil (spells_items .nil .nil pieces (List.cons_ne_nil _ _))
      exact spelled
  | .object [] => .noFields
  | .object (field :: fields) => by
      have pieces := compact_fields_spell (field :: fields)
      have spelled := Spells.object .nil (spells_fields .nil .nil pieces (List.cons_ne_nil _ _))
      exact spelled

theorem compact_items_spell : ∀ items : List JsonTree,
    List.Forall₂ (fun tree piece => Spells (.value tree) piece) items (compactItems items)
  | [] => .nil
  | item :: items => .cons (compact_spells item) (compact_items_spell items)

theorem compact_fields_spell : ∀ fields : List (String × JsonTree),
    List.Forall₂ SpellsField fields (compactFields fields)
  | [] => .nil
  | (_, value) :: fields =>
      .cons ⟨[], value.compactChars, .nil, compact_spells value, rfl⟩ (compact_fields_spell fields)

end

theorem blank_line (level : Nat) : Blank ('\n' :: indentation level) := by
  intro char member
  rcases List.mem_cons.1 member with rfl | later
  · rfl
  · rw [List.eq_of_mem_replicate later]
    rfl

mutual

theorem indented_spells (level : Nat) : ∀ tree : JsonTree,
    Spells (.value tree) (tree.indentedChars level)
  | .null => .null
  | .bool true => .yes
  | .bool false => .no
  | .number (.int value inRange) => .int value inRange
  | .number (.float value) => .float value
  | .string text => .string text
  | .array [] => .noItems
  | .array (item :: items) => by
      have pieces := indented_items_spell level (item :: items)
      have spelled := Spells.array (blank_line (level + 1))
        (spells_items (blank_line (level + 1)) (blank_line level) pieces (List.cons_ne_nil _ _))
      simpa [indentedChars, indentedItems, bracketed] using spelled
  | .object [] => .noFields
  | .object (field :: fields) => by
      have pieces := indented_fields_spell level (field :: fields)
      have spelled := Spells.object (blank_line (level + 1))
        (spells_fields (blank_line (level + 1)) (blank_line level) pieces (List.cons_ne_nil _ _))
      simpa [indentedChars, indentedFields, bracketed] using spelled

theorem indented_items_spell (level : Nat) : ∀ items : List JsonTree,
    List.Forall₂ (fun tree piece => Spells (.value tree) piece) items (indentedItems level items)
  | [] => .nil
  | item :: items =>
      .cons (indented_spells (level + 1) item) (indented_items_spell level items)

theorem indented_fields_spell (level : Nat) : ∀ fields : List (String × JsonTree),
    List.Forall₂ SpellsField fields (indentedFields level fields)
  | [] => .nil
  | (name, value) :: fields => by
      have space : Blank [' '] := by
        intro char member
        rw [List.mem_singleton.1 member]
        rfl
      exact .cons ⟨[' '], value.indentedChars (level + 1), space,
        indented_spells (level + 1) value, rfl⟩ (indented_fields_spell level fields)

end

mutual

theorem reread_whole : ∀ tree : JsonTree, tree.hasFloat = false → tree.reread = tree
  | .null, _ => rfl
  | .bool _, _ => rfl
  | .number (.int _ _), _ => rfl
  | .string _, _ => rfl
  | .array items, whole => congrArg array (reread_items_whole items whole)
  | .object fields, whole => congrArg object (reread_fields_whole fields whole)

theorem reread_items_whole : ∀ items : List JsonTree, hasFloatItems items = false →
    rereadItems items = items
  | [], _ => rfl
  | item :: items, whole => by
      obtain ⟨first, rest⟩ := Bool.or_eq_false_iff.1 whole
      rw [rereadItems, reread_whole item first, reread_items_whole items rest]

theorem reread_fields_whole : ∀ fields : List (String × JsonTree),
    hasFloatFields fields = false → rereadFields fields = fields
  | [], _ => rfl
  | (name, value) :: fields, whole => by
      obtain ⟨first, rest⟩ := Bool.or_eq_false_iff.1 whole
      rw [rereadFields, reread_whole value first, reread_fields_whole fields rest]

end

theorem read_compact {tree : JsonTree} (whole : tree.hasFloat = false) :
    Json.read? tree.compact = some (.ofTree tree) := by
  rw [compact, (compact_spells tree).read, reread_whole tree whole]

theorem read_indented {tree : JsonTree} (whole : tree.hasFloat = false) :
    Json.read? tree.indented = some (.ofTree tree) := by
  rw [indented, (indented_spells 0 tree).read, reread_whole tree whole]

end JsonTree

end PageBuilder
