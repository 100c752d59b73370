import PageBuilder.Json.Decode

/-!
Values of attributes, props and params. A value is either fixed, or says where it comes from: from
another node, from a text with interpolations, from a script that runs with the page, or from the
store of secrets.
-/

namespace PageBuilder

abbrev NodeId := String

/-- How the text of a bound value becomes code: between backticks, or as it is. -/
inductive BoundFormat where
  | literal
  | expression
  deriving DecidableEq

inductive Bindable where
  | const (value : Json)
  | binding (node : NodeId) (prop : String)
  | bound (text : String) (format : Option BoundFormat)
  | script (text : String)
  | secret (reference : String)
  deriving BEq

abbrev BindableMap := SortedMap Bindable

namespace Bindable

def const? : Bindable → Option Json
  | .const value => some value
  | _ => none

def string? (value : Bindable) : Option String := value.const?.bind Json.asString?

def constString (text : String) : Bindable := .const (.string text)

end Bindable

namespace BoundFormat

def names : List (String × BoundFormat) :=
  [("stringLiteral", .literal), ("expression", .expression)]

def name : BoundFormat → String
  | .literal => "stringLiteral"
  | .expression => "expression"

def decode : Decoder BoundFormat := Decode.choice names

end BoundFormat

namespace Bindable

def caseNames : List String := ["const", "binding", "boundExpression", "jsExpression", "secret"]

def caseName : Bindable → String
  | .const _ => "const"
  | .binding _ _ => "binding"
  | .bound _ _ => "boundExpression"
  | .script _ => "jsExpression"
  | .secret _ => "secret"

def fields : Bindable → List (String × JsonTree)
  | .const value => [("value", value.tree)]
  | .binding node prop => [("nodeId", .string node), ("prop", .string prop)]
  | .bound text none => [("value", .string text)]
  | .bound text (some format) => [("value", .string text), ("format", .string format.name)]
  | .script text => [("value", .string text)]
  | .secret reference => [("value", .string reference)]

def tree (value : Bindable) : JsonTree :=
  .object (("type", .string value.caseName) :: value.fields)

def decodeOne {Value : Type} (decode : Decoder Value) (name : String) (place : Place)
    (body : Decode.Body) : Option Value := do
  match ← body.pick? [name] with
  | [value] => Decode.required decode place value
  | _ => none

def decodeBinding (place : Place) (body : Decode.Body) : Option Bindable := do
  match ← body.pick? ["nodeId", "prop"] with
  | [node, prop] =>
      some (.binding (← Decode.required Decode.string place node)
        (← Decode.required Decode.string place prop))
  | _ => none

def decodeBound (place : Place) (body : Decode.Body) : Option Bindable := do
  match ← body.pick? ["value", "format"] with
  | [text, format] =>
      some (.bound (← Decode.required Decode.string place text)
        (← Decode.optional BoundFormat.decode place format))
  | _ => none

def decode : Decoder Bindable := fun place written => do
  let (number, body) ← Decode.tagged? caseNames place written
  let place := place.tagged
  match number with
  | 0 => (decodeOne Decode.json "value" place body).map .const
  | 1 => decodeBinding place body
  | 2 => decodeBound place body
  | 3 => (decodeOne Decode.string "value" place body).map .script
  | _ => (decodeOne Decode.string "value" place body).map .secret

def mapTree (values : BindableMap) : JsonTree :=
  .object (values.entries.map fun entry => (entry.1, entry.2.tree))

def decodeMap : Decoder BindableMap := Decode.map decode

end Bindable

end PageBuilder
