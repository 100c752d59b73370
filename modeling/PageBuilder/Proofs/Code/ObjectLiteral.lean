import PageBuilder.Page.Compiler
import PageBuilder.Proofs.Code.Declaration
import PageBuilder.Proofs.Json.Reader
import PageBuilder.Proofs.Scope

/-!
Object literals of the generated language, read by their grammar: keys are identifiers, or texts
between quotes, and at a key stands an identifier, or an object of identifiers. What is written for
the runtime scope is read back, whatever characters its keys have.
-/

namespace PageBuilder.Code.ObjectLiteral

inductive Content where
  | name (identifier : String)
  | object (fields : List (String × String))
  deriving DecidableEq

namespace Content

def text : Content → String
  | .name identifier => identifier
  | .object fields =>
      let texts := fields.map fun field => s!"{PageView.objectKey field.1}: {field.2}"
      "\x7b " ++ ", ".intercalate texts ++ " \x7d"

def Proper : Content → Prop
  | .name identifier => Identifier.isValid identifier = true
  | .object fields => ∀ field ∈ fields, Identifier.isValid field.2 = true

end Content

variable {Value : Type}

/-- Identifiers go on as long as they can. -/
def readIdentifier (chars : List Char) : Option (String × List Char) :=
  let name := String.ofList (chars.takeWhile Identifier.isPart)
  if Identifier.isValid name then some (name, chars.dropWhile Identifier.isPart) else none

def readKey : List Char → Option (String × List Char)
  | '"' :: chars => do
      let (key, rest) ← Json.readString chars
      key.map fun key => (key, rest)
  | chars => readIdentifier chars

def readField (readValue : List Char → Option (Value × List Char)) (chars : List Char) :
    Option ((String × Value) × List Char) := do
  let (key, rest) ← readKey chars
  match Json.skipSpace rest with
  | ':' :: rest => do
      let (value, rest) ← readValue (Json.skipSpace rest)
      some ((key, value), rest)
  | _ => none

/-- Fields up to the closing brace. Every field takes a character, so the length of the text is fuel
enough. -/
def readFields (readValue : List Char → Option (Value × List Char)) :
    Nat → List Char → Option (List (String × Value) × List Char)
  | 0, _ => none
  | fuel + 1, chars => do
      let (field, rest) ← readField readValue (Json.skipSpace chars)
      match Json.skipSpace rest with
      | ',' :: rest => do
          let (fields, rest) ← readFields readValue fuel rest
          some (field :: fields, rest)
      | '\x7d' :: rest => some ([field], rest)
      | _ => none

def readInside (readValue : List Char → Option (Value × List Char)) (chars : List Char) :
    Option (List (String × Value) × List Char) :=
  match Json.skipSpace chars with
  | '\x7d' :: rest => some ([], rest)
  | _ => readFields readValue chars.length chars

def readContent : List Char → Option (Content × List Char)
  | '\x7b' :: chars => do
      let (fields, rest) ← readInside readIdentifier chars
      some (.object fields, rest)
  | chars => do
      let (name, rest) ← readIdentifier chars
      some (.name name, rest)

def read? (text : String) : Option (List (String × Content)) :=
  match text.toList with
  | '\x7b' :: chars => do
      let (fields, rest) ← readInside readContent chars
      if (Json.skipSpace rest).isEmpty then some fields else none
  | _ => none

/-- The keys on the way to an identifier. -/
inductive Holds (fields : List (String × Content)) : List String → String → Prop
  | name {key identifier : String} (listed : (key, .name identifier) ∈ fields) :
      Holds fields [key] identifier
  | field {key inner identifier : String} {object : List (String × String)}
      (listed : (key, .object object) ∈ fields) (held : (inner, identifier) ∈ object) :
      Holds fields [key, inner] identifier

def Ends (rest : List Char) : Prop := ∀ char ∈ rest.head?, Identifier.isPart char = false

theorem Ends.cons {char : Char} (other : Identifier.isPart char = false) (rest : List Char) :
    Ends (char :: rest) := by
  intro first member
  cases Option.mem_some.1 member
  exact other

/-- A text that begins with no blank is read as a value, whatever comes after its last name. -/
structure Spells (read : List Char → Option (Value × List Char)) (text : List Char)
    (value : Value) : Prop where
  solid : ∃ first rest, text = first :: rest ∧ Json.isSpace first = false
  back : ∀ rest, Ends rest → read (text ++ rest) = some (value, rest)

variable {read : List Char → Option (Value × List Char)} {text : List Char} {value : Value}

theorem Spells.length_pos (spells : Spells read text value) : 0 < text.length := by
  obtain ⟨_, _, rfl, _⟩ := spells.solid
  exact Nat.succ_pos _

theorem Spells.skip_blank (spells : Spells read text value) (rest : List Char) :
    Json.skipSpace (' ' :: (text ++ rest)) = text ++ rest := by
  have blank : Json.Blank [' '] := List.forall_mem_singleton.2 rfl
  obtain ⟨first, others, rfl, solid⟩ := spells.solid
  rw [← List.singleton_append, Json.skip_blanks blank]
  exact Json.skip_none solid _

theorem part_is_solid {char : Char} (part : Identifier.isPart char = true) :
    Json.isSpace char = false := by
  rw [← Bool.not_eq_true]
  intro space
  simp only [Json.isSpace, Bool.or_eq_true, decide_eq_true_eq] at space
  rcases space with ((rfl | rfl) | rfl) | rfl
  all_goals exact absurd part (by decide)

theorem read_identifier_back {name : String} (valid : Identifier.isValid name = true)
    {rest : List Char} (ends : Ends rest) :
    readIdentifier (name.toList ++ rest) = some (name, rest) := by
  have parts : ∀ char ∈ name.toList, Identifier.isPart char = true :=
    fun char member => Identifier.is_part_of_valid valid member
  have taken : rest.takeWhile Identifier.isPart = [] := by
    cases rest with
    | nil => rfl
    | cons first rest => simp [ends first rfl]
  have dropped : rest.dropWhile Identifier.isPart = rest := by
    cases rest with
    | nil => rfl
    | cons first rest => simp [ends first rfl]
  rw [readIdentifier, List.takeWhile_append_of_pos parts, List.dropWhile_append_of_pos parts,
    taken, dropped, List.append_nil, String.ofList_toList, if_pos valid]

theorem exists_part {name : String} (valid : Identifier.isValid name = true) :
    ∃ first rest, name.toList = first :: rest ∧ Identifier.isPart first = true := by
  cases shape : name.toList with
  | nil =>
      rw [Identifier.isValid, shape] at valid
      cases valid
  | cons first rest =>
      have member : first ∈ name.toList := shape ▸ List.mem_cons_self
      exact ⟨first, rest, rfl, Identifier.is_part_of_valid valid member⟩

theorem spells_identifier {name : String} (valid : Identifier.isValid name = true) :
    Spells readIdentifier name.toList name where
  solid := by
    obtain ⟨first, rest, shape, part⟩ := exists_part valid
    exact ⟨first, rest, shape, part_is_solid part⟩
  back := fun _ ends => read_identifier_back valid ends

theorem spells_plain_key {name : String} (valid : Identifier.isValid name = true) :
    Spells readKey name.toList name where
  solid := (spells_identifier valid).solid
  back := by
    intro rest ends
    obtain ⟨first, others, shape, part⟩ := exists_part valid
    have unquoted : first ≠ '"' := by
      rintro rfl
      exact absurd part (by decide)
    have read := read_identifier_back valid ends
    rw [shape, List.cons_append] at read ⊢
    rw [readKey]
    · exact read
    · intro chars same
      exact unquoted (List.cons.inj same).1

theorem spells_quoted_key (name : String) :
    Spells readKey (Json.stringText name).toList name where
  solid := by
    obtain ⟨chars, shape, _⟩ := Json.read_string_chars name []
    rw [List.append_nil] at shape
    rw [Json.stringText, String.toList_ofList]
    exact ⟨'"', chars, shape, by decide⟩
  back := by
    intro rest _
    obtain ⟨chars, shape, read⟩ := Json.read_string_chars name rest
    rw [Json.stringText, String.toList_ofList, shape, readKey, read]
    rfl

theorem spells_object_key (name : String) :
    Spells readKey (PageView.objectKey name).toList name := by
  rw [PageView.objectKey]
  split
  · rename_i same
    have valid := Identifier.is_valid_of_text name
    rw [same] at valid
    exact spells_plain_key valid
  · exact spells_quoted_key name

theorem spells_field {key : List Char} {name : String} (first : Spells readKey key name)
    (second : Spells read text value) :
    Spells (readField read) (key ++ ':' :: ' ' :: text) (name, value) where
  solid := by
    obtain ⟨char, rest, shape, solid⟩ := first.solid
    exact ⟨char, _, by rw [shape, List.cons_append], solid⟩
  back := by
    intro rest ends
    have colon : Json.skipSpace (':' :: ' ' :: (text ++ rest)) = ':' :: ' ' :: (text ++ rest) :=
      Json.skip_none (by decide) _
    simp only [readField, List.append_assoc, List.cons_append]
    rw [first.back _ (.cons (by decide) _)]
    simp only [Option.bind_eq_bind, Option.bind_some, colon, second.skip_blank]
    rw [second.back _ ends]
    rfl

theorem spells_fields {fields : List (String × Value)} {pieces : List String}
    (spelled : List.Forall₂ (fun piece => Spells (readField read) piece.toList) pieces fields)
    (nonempty : pieces ≠ []) {fuel : Nat} (enough : (listed pieces).length ≤ fuel)
    (rest : List Char) :
    readFields read fuel (' ' :: (listed pieces ++ ' ' :: '\x7d' :: rest)) =
      some (fields, rest) := by
  induction spelled generalizing fuel with
  | nil => exact absurd rfl nonempty
  | @cons piece field pieces fields first later ih =>
      cases later with
      | nil =>
          have brace : Json.skipSpace (' ' :: '\x7d' :: rest) = '\x7d' :: rest := rfl
          rw [listed_singleton] at enough ⊢
          have left := Nat.lt_of_lt_of_le first.length_pos enough
          obtain ⟨fuel, rfl⟩ := Nat.exists_eq_add_one.2 left
          rw [readFields, first.skip_blank, first.back _ (.cons (by decide) _)]
          simp only [Option.bind_eq_bind, Option.bind_some, brace]
      | cons second others =>
          have comma (chars : List Char) : Json.skipSpace (',' :: chars) = ',' :: chars :=
            Json.skip_none (by decide) _
          rw [listed_cons piece (List.cons_ne_nil _ _)] at enough ⊢
          simp only [List.length_append, List.length_cons] at enough
          obtain ⟨fuel, rfl⟩ : ∃ less, fuel = less + 1 := Nat.exists_eq_add_one.2 (by omega)
          -- The comma alone takes more of the text than this step takes of the fuel.
          have read := ih (List.cons_ne_nil _ _) (by omega : _ ≤ fuel)
          simp only [List.append_assoc, List.cons_append]
          rw [readFields, first.skip_blank, first.back _ (.cons (by decide) _)]
          simp only [Option.bind_eq_bind, Option.bind_some, comma]
          rw [read]
          rfl

/-- No field begins with a closing brace. -/
theorem Spells.opens_field {field : String × Value} (spells : Spells (readField read) text field) :
    ∃ first rest, text = first :: rest ∧ first ≠ '\x7d' := by
  obtain ⟨first, rest, rfl, _⟩ := spells.solid
  refine ⟨first, rest, rfl, ?_⟩
  rintro rfl
  cases spells.back [] fun _ member => by cases member

theorem read_inside_back {fields : List (String × Value)} {pieces : List String}
    (spelled : List.Forall₂ (fun piece => Spells (readField read) piece.toList) pieces fields)
    (rest : List Char) :
    readInside read (' ' :: (listed pieces ++ ' ' :: '\x7d' :: rest)) = some (fields, rest) := by
  cases spelled with
  | nil => rfl
  | @cons piece field pieces fields first later =>
      obtain ⟨behind, starts⟩ : ∃ behind, listed (piece :: pieces) = piece.toList ++ behind := by
        by_cases empty : pieces = []
        · exact ⟨[], by rw [empty, listed_singleton, List.append_nil]⟩
        · exact ⟨_, listed_cons piece empty⟩
      obtain ⟨char, others, shape, other⟩ := first.opens_field
      rw [readInside]
      split
      · rename_i closed
        rw [starts, List.append_assoc, first.skip_blank, shape] at closed
        exact absurd (List.cons.inj closed).1 other
      · apply spells_fields (.cons first later) (List.cons_ne_nil _ _)
        simp only [List.length_cons, List.length_append]
        omega

theorem spells_written_field {code : String} (spells : Spells read code.toList value)
    (name : String) :
    Spells (readField read) (s!"{PageView.objectKey name}: {code}").toList (name, value) := by
  have chars : (s!"{PageView.objectKey name}: {code}").toList =
      (PageView.objectKey name).toList ++ ':' :: ' ' :: code.toList := by
    simp [toString]
  rw [chars]
  exact spells_field (spells_object_key name) spells

theorem read_written_object (code : Value → String) {fields : List (String × Value)}
    (each : ∀ field ∈ fields, Spells read (code field.2).toList field.2) (rest : List Char) :
    ∃ inside,
      ("\x7b " ++ ", ".intercalate
        (fields.map fun field => s!"{PageView.objectKey field.1}: {code field.2}") ++
          " \x7d").toList ++ rest = '\x7b' :: inside ∧
      readInside read inside = some (fields, rest) := by
  have spelled : List.Forall₂ (fun piece => Spells (readField read) piece.toList)
      (fields.map fun field => s!"{PageView.objectKey field.1}: {code field.2}") fields := by
    rw [List.forall₂_map_left_iff, List.forall₂_same]
    intro field member
    exact spells_written_field (each field member) field.1
  refine ⟨_, ?_, read_inside_back spelled rest⟩
  simp [listed]

theorem spells_content {content : Content} (proper : content.Proper) :
    Spells readContent content.text.toList content := by
  cases content with
  | name identifier =>
      refine ⟨(spells_identifier proper).solid, ?_⟩
      intro rest ends
      have read := read_identifier_back proper ends
      obtain ⟨first, others, shape, part⟩ := exists_part proper
      rw [shape, List.cons_append] at read
      rw [Content.text, shape, List.cons_append, readContent, read]
      · rfl
      · rintro chars same
        obtain ⟨rfl, _⟩ := List.cons.inj same
        exact absurd part (by decide)
  | object fields =>
      have written := read_written_object id fun field member =>
        spells_identifier (proper field member)
      constructor
      · obtain ⟨inside, shape, _⟩ := written []
        rw [List.append_nil] at shape
        exact ⟨_, inside, shape, by decide⟩
      · intro rest _
        obtain ⟨inside, shape, read⟩ := written rest
        refine (congrArg readContent shape).trans ?_
        rw [readContent, read]
        rfl

theorem read_of_inside {text : String} {inside : List Char} {fields : List (String × Content)}
    (shape : text.toList = '\x7b' :: inside)
    (read : readInside readContent inside = some (fields, [])) : read? text = some fields := by
  simp only [read?, shape, read]
  rfl

/-- The object of a runtime scope is read as what its entries stand for. -/
theorem read_scope_literal {entries : List (String × Content)}
    (proper : ∀ entry ∈ entries, entry.2.Proper) :
    read? (PageCompiler.scopeLiteral
      (entries.map fun entry => (PageView.objectKey entry.1, entry.2.text))) = some entries := by
  rw [PageCompiler.scopeLiteral]
  split
  · rename_i empty
    rw [List.isEmpty_map, List.isEmpty_iff] at empty
    rw [empty]
    decide
  · obtain ⟨inside, shape, read⟩ := read_written_object Content.text
      (fun entry member => spells_content (proper entry member)) []
    rw [List.append_nil] at shape
    rw [List.map_map]
    exact read_of_inside shape read

example : read? (PageCompiler.scopeLiteral
    [(PageView.objectKey "my page", (Content.object [("a-b", "ab")]).text), ("sum", "sum")]) =
      some [("my page", .object [("a-b", "ab")]), ("sum", .name "sum")] := by
  decide +kernel

end PageBuilder.Code.ObjectLiteral
