import PageBuilder.Json.Written

/-!
Decoders from what a JSON text says to the types of the library. A record is an object, of which
unknown fields are passed over, or an array of its fields in order. A tagged value names its case
first, and everything inside it has to have a value, also what is passed over.
-/

namespace PageBuilder

/-- Where a value stands: how many arrays and objects may still open, and whether it lies inside
a tagged value. -/
structure Place where
  levels : Nat
  inTagged : Bool

def nestingLimit : Nat := 127

def Place.text : Place := ⟨nestingLimit, false⟩

def Place.inside (place : Place) : Place := { place with levels := place.levels - 1 }

def Place.tagged (place : Place) : Place := ⟨place.levels - 1, true⟩

abbrev Decoder (Value : Type) := Place → Written → Option Value

namespace Decode

variable {Value : Type}

def string : Decoder String := fun _ written =>
  match written with
  | .string value => value
  | _ => none

def bool : Decoder Bool := fun _ written =>
  match written with
  | .bool value => some value
  | _ => none

def json : Decoder Json := fun place written => written.json? place.levels

/-- Null is no value. -/
def option (decode : Decoder Value) : Decoder (Option Value) := fun place written =>
  match written with
  | .null => some none
  | written => (decode place written).map some

def list (decode : Decoder Value) : Decoder (List Value) := fun place written =>
  match written with
  | .array items =>
      if place.levels = 0 then none else items.mapM (decode place.inside)
  | _ => none

def entry (decode : Decoder Value) (place : Place) (field : Option String × Written) :
    Option (String × Value) := do
  let name ← field.1
  let value ← decode place field.2
  some (name, value)

/-- Of entries of one name the last counts. -/
def map (decode : Decoder Value) : Decoder (SortedMap Value) := fun place written =>
  match written with
  | .object fields =>
      if place.levels = 0 then none
      else (fields.mapM (entry decode place.inside)).map SortedMap.ofList
  | _ => none

/-- The fields of a record, named or in order. -/
inductive Body where
  | named (fields : List (String × Written))
  | listed (items : List Written)

def field (field : Option String × Written) : Option (String × Written) :=
  field.1.map fun name => (name, field.2)

def body? : Written → Option Body
  | .object fields => (fields.mapM field).map Body.named
  | .array items => some (.listed items)
  | _ => none

/-- The one field of a name; a repeated name fails. -/
def namedField? (fields : List (String × Written)) (name : String) : Option (Option Written) :=
  match fields.filter fun field => field.1 = name with
  | [] => some none
  | [field] => some (some field.2)
  | _ => none

def Body.pick? (names : List String) : Body → Option (List (Option Written))
  | .named fields => names.mapM (namedField? fields)
  | .listed items =>
      if items.length ≤ names.length then
        some (items.map some ++ List.replicate (names.length - items.length) none)
      else none

def record? (place : Place) (written : Written) (names : List String) :
    Option (List (Option Written)) :=
  if place.levels = 0 then none
  else do
    let body ← body? written
    body.pick? names

def required (decode : Decoder Value) (place : Place) : Option Written → Option Value
  | some written => decode place written
  | none => none

def defaulted (value : Value) (decode : Decoder Value) (place : Place) :
    Option Written → Option Value
  | some written => decode place written
  | none => some value

def optional (decode : Decoder Value) (place : Place) (written : Option Written) :
    Option (Option Value) :=
  defaulted none (option decode) place written

/-- The case that a tag names. Inside a tagged value a tag may also give its number. -/
def caseNumber? (names : List String) (place : Place) : Written → Option Nat
  | .string (some name) => names.idxOf? name
  | .number (some (.int value _)) =>
      if place.inTagged && 0 ≤ value && value < names.length then some value.toNat else none
  | _ => none

def tagName : String := "type"

def tagged? (names : List String) (place : Place) (written : Written) : Option (Nat × Body) := do
  let _ ← written.json? place.levels
  match ← body? written with
  | .named fields =>
      let tag ← (← namedField? fields tagName)
      some (← caseNumber? names place tag, .named (fields.filter fun field => field.1 ≠ tagName))
  | .listed [] => none
  | .listed (tag :: items) => some (← caseNumber? names place tag, .listed items)

def isNothing (place : Place) : Written → Bool
  | .null => true
  | .object fields => place.inTagged && fields.isEmpty
  | _ => false

/-- One of several names, by itself or as the only field of an object that says nothing more. -/
def choice (names : List (String × Value)) : Decoder Value := fun place written =>
  match written with
  | .string (some name) => names.lookup name
  | .object [(some name, content)] =>
      if place.levels ≠ 0 && isNothing place content then names.lookup name else none
  | _ => none

def readText? (decode : Decoder Value) (written : Option Written) : Option Value := do
  decode Place.text (← written)

end Decode

end PageBuilder
