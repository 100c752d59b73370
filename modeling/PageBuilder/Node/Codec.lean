import PageBuilder.Node

/-!
Nodes as JSON. The type of a node stands among its other fields, and fields that do not belong to
the type are passed over.
-/

namespace PageBuilder

namespace Placement

def tree (placement : Placement) : JsonTree :=
  .object
    [("parentId", .string placement.parent), ("parentProp", .string placement.slot),
      ("parentIndex", .string placement.index)]

def decode : Decoder Placement := fun place written => do
  match ← Decode.record? place written ["parentId", "parentProp", "parentIndex"] with
  | [parent, slot, index] =>
      let place := place.inside
      some
        { parent := ← Decode.required Decode.string place parent
          slot := ← Decode.required Decode.string place slot
          index := ← Decode.required Decode.string place index }
  | _ => none

end Placement

namespace NodeKind

/-- What a node of the kind holds beside the fields of every node. -/
def fields : NodeKind → List (String × JsonTree)
  | .application | .theme | .api => []
  | .page state => [("state", .object (state.entries.map fun entry => (entry.1, entry.2.tree)))]
  | .element props => [("props", Bindable.mapTree props)]
  | .derivedState params => [("params", Bindable.mapTree params)]
  | .queryState params => [("params", Bindable.mapTree params)]
  | .fetchedState params => [("params", Bindable.mapTree params)]

def decodeField {Value : Type} (decode : Decoder (SortedMap Value)) (name : String)
    (place : Place) (fields : List (String × Written)) : Option (SortedMap Value) := do
  Decode.defaulted .empty decode place (← Decode.namedField? fields name)

def decodeFields (place : Place) (fields : List (String × Written)) : Option NodeKind := do
  let tag ← (← Decode.namedField? fields Decode.tagName)
  match ← Decode.caseNumber? (NodeType.all.map NodeType.name) place tag with
  | 0 => some .application
  | 1 => some .theme
  | 2 => some .api
  | 3 => (decodeField (Decode.map Decode.json) "state" place fields).map .page
  | 4 => (decodeField Bindable.decodeMap "props" place fields).map .element
  | 5 => (decodeField Bindable.decodeMap "params" place fields).map .derivedState
  | 6 => (decodeField Bindable.decodeMap "params" place fields).map .queryState
  | _ => (decodeField Bindable.decodeMap "params" place fields).map .fetchedState

end NodeKind

namespace Node

def headerNames : List String := ["id", "name", "parent", "attributes"]

def placementFields (node : Node) : List (String × JsonTree) :=
  match node.placement with
  | some placement => [("parent", placement.tree)]
  | none => []

def tree (node : Node) : JsonTree :=
  .object
    ([("id", .string node.id), ("name", .string node.name)] ++ node.placementFields
      ++ [("attributes", Bindable.mapTree node.attributes), ("type", .string node.type.name)]
      ++ node.kind.fields)

/-- Every field that is not of the header has to have a value. -/
def decode : Decoder Node := fun place written => do
  match written with
  | .object entries =>
      if place.levels = 0 then none
      else do
        let fields ← entries.mapM Decode.field
        let inside := place.inside
        let others := fields.filter fun field => !headerNames.contains field.1
        let _ ← others.mapM fun field => field.2.json? inside.levels
        match ← (Decode.Body.named fields).pick? headerNames with
        | [id, name, parent, attributes] =>
            some
              { id := ← Decode.required Decode.string inside id
                name := ← Decode.required Decode.string inside name
                placement := ← Decode.optional Placement.decode inside parent
                attributes := ← Decode.defaulted .empty Bindable.decodeMap inside attributes
                kind := ← NodeKind.decodeFields place.tagged others }
        | _ => none
  | _ => none

end Node

end PageBuilder
