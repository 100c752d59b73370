import PageBuilder.Document.Basic
import PageBuilder.FreshName
import PageBuilder.IdSource
import PageBuilder.OrderKey

/-!
Edits of documents. Every edit gives a new document or says why there is none; the document it
starts from stays as it is.
-/

namespace PageBuilder

inductive StructureFault where
  | alreadyPlaced (id parent : NodeId)
  | parentType (child parent : NodeType)
  | cycle (id parent : NodeId)
  | indexTaken (parent : NodeId) (slot index : String)
  | idTaken (id : NodeId)
  | badIndex (fault : OrderKey.Fault)
  deriving DecidableEq

def StructureFault.message : StructureFault → String
  | .alreadyPlaced id parent => s!"Node {id} is already attached to {parent}"
  | .parentType child parent =>
      s!"A {child.name} node can't be placed under a {parent.name} node"
  | .cycle id parent => s!"Moving {id} under {parent} would create a cycle"
  | .indexTaken parent slot index => s!"Index {index} is already used under {parent}.{slot}"
  | .idTaken id => s!"Node id {id} is already in use"
  | .badIndex fault => s!"Invalid fractional index: {fault.message}"

inductive EditFault where
  | structural (fault : StructureFault)
  | lookup (fault : LookupFault)
  deriving DecidableEq

def EditFault.message : EditFault → String
  | .structural fault => s!"Structural error: {fault.message}"
  | .lookup fault => s!"Reference error: {fault.message}"

namespace Document

def found {Value : Type} : Except LookupFault Value → Except EditFault Value
  | .ok value => .ok value
  | .error fault => .error (.lookup fault)

def keyed {Value : Type} : Except OrderKey.Fault Value → Except EditFault Value
  | .ok value => .ok value
  | .error fault => .error (.structural (.badIndex fault))

def require (condition : Bool) (fault : StructureFault) : Except EditFault Unit :=
  if condition then .ok () else .error (.structural fault)

def ofRoot (root : NodeId) : Document :=
  let node : Node := ⟨root, "application", none, .empty, .application⟩
  ⟨root, SortedMap.empty.insert root node, SortedMap.empty.insert node.name root⟩

def indexAt (document : Document) (parent : NodeId) (slot : String) (position : Nat) :
    Except EditFault String := do
  let _ ← found (document.node parent)
  let siblings := document.childrenIn parent slot
  let position := min position siblings.length
  let low := if position = 0 then none else siblings[position - 1]?.map indexOf
  keyed (OrderKey.between low (siblings[position]?.map indexOf))

def create (document : Document) (ids : IdSource) (draft : NodeDraft) : Node × IdSource :=
  let (id, ids) := ids.nextFree document.nodes.contains
  let wanted := draft.name.getD draft.defaultName
  let name := FreshName.propose wanted document.names.keys
  (⟨id, name, none, draft.attributes, draft.kind⟩, ids)

/-- The index for a node in a slot: the one asked for, unless a sibling has it, or one after all
siblings. The node that moves is no sibling of itself. -/
def chooseIndex (document : Document) (parent : NodeId) (slot : String)
    (wanted : Option String) (moving : Option NodeId) : Except EditFault String := do
  let siblings := (document.childrenIn parent slot).filter fun node => some node.id != moving
  match wanted with
  | some index => do
      keyed (OrderKey.check index)
      require (!(siblings.any fun node => indexOf node = index)) (.indexTaken parent slot index)
      .ok index
  | none => keyed (OrderKey.after (siblings.getLast?.map indexOf))

def add (document : Document) (node : Node) (parent : NodeId) (slot : String)
    (index : Option String) : Except EditFault Document := do
  match node.placement with
  | some placement => .error (.structural (.alreadyPlaced node.id placement.parent))
  | none => do
      require (!document.nodes.contains node.id) (.idTaken node.id)
      let above ← found (document.node parent)
      require (node.type.fitsUnder above.type) (.parentType node.type above.type)
      let index ← document.chooseIndex parent slot index none
      let name :=
        if document.hasName node.name then FreshName.propose node.name document.names.keys
        else node.name
      let placed := { node with name, placement := some ⟨parent, slot, index⟩ }
      .ok
        { document with
          nodes := document.nodes.insert placed.id placed
          names := document.names.insert name placed.id }

/-- Puts a node in the place of the one with its identifier. A name that it gives up is free. -/
def replace (document : Document) (node : Node) : Document :=
  let names :=
    match document.get? node.id with
    | some old =>
        if old.name = node.name then document.names
        else (document.names.erase old.name).insert node.name node.id
    | none => document.names
  { document with nodes := document.nodes.insert node.id node, names }

def move (document : Document) (id parent : NodeId) (slot : String) (index : Option String) :
    Except EditFault Document := do
  let node ← found (document.node id)
  let above ← found (document.node parent)
  require (node.type.fitsUnder above.type) (.parentType node.type above.type)
  require (!(id = parent || (document.ancestors parent).any fun ancestor => ancestor.id = id))
    (.cycle id parent)
  let index ← document.chooseIndex parent slot index (some id)
  .ok (document.replace { node with placement := some ⟨parent, slot, index⟩ })

/-- Removes a node with everything below it. -/
def remove (document : Document) (id : NodeId) : Except EditFault Document := do
  let node ← found (document.node id)
  if node.placement.isNone then .error (.lookup (.noParent id))
  else
    let removed := node :: document.descendants id
    .ok
      { document with
        nodes := removed.foldl (fun nodes node => nodes.erase node.id) document.nodes
        names := removed.foldl (fun names node => names.erase node.name) document.names }

def namesBeside (document : Document) (id : NodeId) : List String :=
  (document.names.entries.filter fun entry => entry.2 ≠ id).map Prod.fst

def rename (document : Document) (id : NodeId) (name : String) : Except EditFault Document := do
  let node ← found (document.node id)
  if node.name = name then .ok document
  else
    .ok (document.replace
      { node with name := FreshName.propose name (document.namesBeside id) })

def setValue (document : Document) (id : NodeId) (space : Namespace) (name : String)
    (value : Option Bindable) : Except EditFault Document := do
  let node ← found (document.node id)
  if (node.values? space).isNone then .error (.lookup (.missingNamespace node.type space))
  else
    let change := fun (values : BindableMap) =>
      match value with
      | some value => values.insert name value
      | none => values.erase name
    .ok (document.replace (node.mapValues change space))

def setPageState (document : Document) (page : NodeId) (slot : String) (value : Json) :
    Except EditFault Document := do
  let node ← found (document.nodeOfType page .page)
  .ok (document.replace
    { node with kind := node.kind.mapState fun state => state.insert slot value })

def removePageState (document : Document) (page : NodeId) (slot : String) :
    Except EditFault Document := do
  let node ← found (document.nodeOfType page .page)
  match node.kind.state?.bind fun state => state.get? slot with
  | none => .error (.lookup (.slotNotFound page slot))
  | some _ =>
      .ok (document.replace
        { node with kind := node.kind.mapState fun state => state.erase slot })

end Document

end PageBuilder
