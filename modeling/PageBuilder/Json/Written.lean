import PageBuilder.Json.Basic

/-!
What a JSON text says, before it is taken as a value: fields in their order, repeated ones
included, and numbers and strings that have no value. Such a number is too large; such a string
has half of a surrogate pair. They do no harm where nobody reads them.
-/

namespace PageBuilder

inductive Written where
  | null
  | bool (value : Bool)
  | number (value : Option JsonNumber)
  | string (value : Option String)
  | array (items : List Written)
  | object (fields : List (Option String × Written))

namespace Written

mutual

/-- The value, unless more than `levels` arrays and objects lie in each other or a part has no
value. Of fields of one name the last counts. -/
def json? (levels : Nat) : Written → Option Json
  | .null => some .null
  | .bool value => some (.bool value)
  | .number value => value.map .number
  | .string value => value.map .string
  | .array items =>
      if levels = 0 then none else (jsonItems? (levels - 1) items).map .array
  | .object fields =>
      if levels = 0 then none
      else (jsonFields? (levels - 1) fields).map fun entries => .object (.ofList entries)

def jsonItems? (levels : Nat) : List Written → Option (List Json)
  | [] => some []
  | item :: rest =>
      match json? levels item, jsonItems? levels rest with
      | some value, some values => some (value :: values)
      | _, _ => none

def jsonFields? (levels : Nat) : List (Option String × Written) → Option (List (String × Json))
  | [] => some []
  | (name, field) :: rest =>
      match name, json? levels field, jsonFields? levels rest with
      | some name, some value, some values => some ((name, value) :: values)
      | _, _, _ => none

end

mutual

def ofTree : JsonTree → Written
  | .null => .null
  | .bool value => .bool value
  | .number value => .number (some value)
  | .string value => .string (some value)
  | .array items => .array (ofItems items)
  | .object fields => .object (ofFields fields)

def ofItems : List JsonTree → List Written
  | [] => []
  | item :: rest => ofTree item :: ofItems rest

def ofFields : List (String × JsonTree) → List (Option String × Written)
  | [] => []
  | (name, value) :: rest => (some name, ofTree value) :: ofFields rest

end

end Written

end PageBuilder
