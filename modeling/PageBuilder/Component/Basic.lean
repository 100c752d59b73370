import PageBuilder.Json.Decode

/-!
Component definitions: where a component is imported from, and the props it has. A controlled prop
holds interactive state; the component calls an event prop with each new value.
-/

namespace PageBuilder

inductive PropKind where
  | string
  | number
  | boolean
  | json
  | event
  deriving DecidableEq

namespace PropKind

def names : List (String × PropKind) :=
  [("string", .string), ("number", .number), ("boolean", .boolean), ("json", .json),
    ("event", .event)]

def name : PropKind → String
  | .string => "string"
  | .number => "number"
  | .boolean => "boolean"
  | .json => "json"
  | .event => "event"

def decode : Decoder PropKind := Decode.choice names

theorem lookup_name (kind : PropKind) : names.lookup kind.name = some kind := by
  cases kind <;> rfl

end PropKind

structure PropDefinition where
  kind : PropKind
  default : Option Json
  /-- The event prop that gives new values back, if the prop is controlled. -/
  changeEvent : Option String
  deriving BEq

structure ComponentDefinition where
  name : String
  source : String
  /-- The name it is exported under, if that is another one. -/
  exportName : Option String
  props : SortedMap PropDefinition
  deriving BEq

namespace PropDefinition

def ofKind (kind : PropKind) : PropDefinition := ⟨kind, none, none⟩

def optionalField (name : String) : Option JsonTree → List (String × JsonTree)
  | some value => [(name, value)]
  | none => []

def tree (prop : PropDefinition) : JsonTree :=
  .object
    (("kind", .string prop.kind.name)
      :: optionalField "defaultValue" (prop.default.map Json.tree)
      ++ optionalField "controlled"
        (prop.changeEvent.map fun event => .object [("changeEvent", .string event)]))

def decodeEvent : Decoder String := fun place written => do
  match ← Decode.record? place written ["changeEvent"] with
  | [event] => Decode.required Decode.string place.inside event
  | _ => none

def decode : Decoder PropDefinition := fun place written => do
  match ← Decode.record? place written ["kind", "defaultValue", "controlled"] with
  | [kind, default, controlled] =>
      let place := place.inside
      some
        { kind := ← Decode.required PropKind.decode place kind
          default := ← Decode.optional Decode.json place default
          changeEvent := ← Decode.optional decodeEvent place controlled }
  | _ => none

end PropDefinition

namespace ComponentDefinition

def exported (definition : ComponentDefinition) : String :=
  definition.exportName.getD definition.name

def controlled (definition : ComponentDefinition) : List (String × String) :=
  definition.props.entries.filterMap fun entry =>
    entry.2.changeEvent.map fun event => (entry.1, event)

def tree (definition : ComponentDefinition) : JsonTree :=
  .object
    ([("name", .string definition.name), ("source", .string definition.source)]
      ++ PropDefinition.optionalField "exportName" (definition.exportName.map JsonTree.string)
      ++ [("props",
        .object (definition.props.entries.map fun entry => (entry.1, entry.2.tree)))])

def decode : Decoder ComponentDefinition := fun place written => do
  match ← Decode.record? place written ["name", "source", "exportName", "props"] with
  | [name, source, exportName, props] =>
      let place := place.inside
      some
        { name := ← Decode.required Decode.string place name
          source := ← Decode.required Decode.string place source
          exportName := ← Decode.optional Decode.string place exportName
          props := ← Decode.defaulted .empty (Decode.map PropDefinition.decode) place props }
  | _ => none

end ComponentDefinition

end PageBuilder
