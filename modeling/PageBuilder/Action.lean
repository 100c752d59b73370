import PageBuilder.Document.Edit
import PageBuilder.Node.Codec

/-!
Edits as values, which can be stored and sent.
-/

namespace PageBuilder

inductive Action where
  | addNode (node : Node) (parent : NodeId) (slot : String) (index : Option String)
  | moveNode (id parent : NodeId) (slot : String) (index : Option String)
  | removeNode (id : NodeId)
  | setNodeName (id : NodeId) (name : String)
  | setValue (id : NodeId) (space : Namespace) (name : String) (value : Option Bindable)
  | setPageState (page : NodeId) (slot : String) (value : Json)
  | removePageState (page : NodeId) (slot : String)
  deriving BEq

namespace Action

def apply (document : Document) : Action → Except EditFault Document
  | .addNode node parent slot index => document.add node parent slot index
  | .moveNode id parent slot index => document.move id parent slot index
  | .removeNode id => document.remove id
  | .setNodeName id name => document.rename id name
  | .setValue id space name value => document.setValue id space name value
  | .setPageState page slot value => document.setPageState page slot value
  | .removePageState page slot => document.removePageState page slot

/-- Giving a node the name it has is the one edit that makes no new document. -/
def isIdle (document : Document) : Action → Bool
  | .setNodeName id name =>
      match document.get? id with
      | some node => node.name = name
      | none => false
  | _ => false

def caseNames : List String :=
  ["addNode", "moveNode", "removeNode", "setNodeName", "setNamespacedProp", "setPageState",
    "removePageState"]

def caseName : Action → String
  | .addNode .. => "addNode"
  | .moveNode .. => "moveNode"
  | .removeNode .. => "removeNode"
  | .setNodeName .. => "setNodeName"
  | .setValue .. => "setNamespacedProp"
  | .setPageState .. => "setPageState"
  | .removePageState .. => "removePageState"

def optionalText : Option String → JsonTree
  | some text => .string text
  | none => .null

def optionalValue : Option Bindable → JsonTree
  | some value => value.tree
  | none => .null

def fields : Action → List (String × JsonTree)
  | .addNode node parent slot index =>
      [("node", node.tree), ("parentId", .string parent), ("parentProp", .string slot),
        ("parentIndex", optionalText index)]
  | .moveNode id parent slot index =>
      [("nodeId", .string id), ("parentId", .string parent), ("parentProp", .string slot),
        ("parentIndex", optionalText index)]
  | .removeNode id => [("nodeId", .string id)]
  | .setNodeName id name => [("nodeId", .string id), ("name", .string name)]
  | .setValue id space name value =>
      [("nodeId", .string id), ("namespace", .string space.name), ("prop", .string name),
        ("value", optionalValue value)]
  | .setPageState page slot value =>
      [("pageId", .string page), ("slot", .string slot), ("defaultValue", value.tree)]
  | .removePageState page slot => [("pageId", .string page), ("slot", .string slot)]

def tree (action : Action) : JsonTree :=
  .object (("type", .string action.caseName) :: action.fields)

open Decode (required optional)

def decodeAdd (place : Place) (body : Decode.Body) : Option Action := do
  match ← body.pick? ["node", "parentId", "parentProp", "parentIndex"] with
  | [node, parent, slot, index] =>
      some (.addNode (← required Node.decode place node) (← required Decode.string place parent)
        (← required Decode.string place slot) (← optional Decode.string place index))
  | _ => none

def decodeMove (place : Place) (body : Decode.Body) : Option Action := do
  match ← body.pick? ["nodeId", "parentId", "parentProp", "parentIndex"] with
  | [id, parent, slot, index] =>
      some (.moveNode (← required Decode.string place id) (← required Decode.string place parent)
        (← required Decode.string place slot) (← optional Decode.string place index))
  | _ => none

def decodeRemove (place : Place) (body : Decode.Body) : Option Action := do
  match ← body.pick? ["nodeId"] with
  | [id] => some (.removeNode (← required Decode.string place id))
  | _ => none

def decodeName (place : Place) (body : Decode.Body) : Option Action := do
  match ← body.pick? ["nodeId", "name"] with
  | [id, name] =>
      some (.setNodeName (← required Decode.string place id) (← required Decode.string place name))
  | _ => none

def decodeValue (place : Place) (body : Decode.Body) : Option Action := do
  match ← body.pick? ["nodeId", "namespace", "prop", "value"] with
  | [id, space, name, value] =>
      some (.setValue (← required Decode.string place id) (← required Namespace.decode place space)
        (← required Decode.string place name) (← optional Bindable.decode place value))
  | _ => none

def decodePageState (place : Place) (body : Decode.Body) : Option Action := do
  match ← body.pick? ["pageId", "slot", "defaultValue"] with
  | [page, slot, value] =>
      some (.setPageState (← required Decode.string place page)
        (← required Decode.string place slot) (← required Decode.json place value))
  | _ => none

def decodeRemoveState (place : Place) (body : Decode.Body) : Option Action := do
  match ← body.pick? ["pageId", "slot"] with
  | [page, slot] =>
      some (.removePageState (← required Decode.string place page)
        (← required Decode.string place slot))
  | _ => none

def decode : Decoder Action := fun place written => do
  let (number, body) ← Decode.tagged? caseNames place written
  let place := place.tagged
  match number with
  | 0 => decodeAdd place body
  | 1 => decodeMove place body
  | 2 => decodeRemove place body
  | 3 => decodeName place body
  | 4 => decodeValue place body
  | 5 => decodePageState place body
  | _ => decodeRemoveState place body

end Action

end PageBuilder
