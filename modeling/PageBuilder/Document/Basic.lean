import PageBuilder.Node

/-!
Documents: a root, nodes by identifier, and identifiers by name. Where a node stands is written in
the node itself; its children, what lies below it and what lies above it are read off that.
-/

namespace PageBuilder

structure Document where
  root : NodeId
  nodes : SortedMap Node
  names : SortedMap NodeId

/-- What is wrong with a request for a node. -/
inductive LookupFault where
  | nodeNotFound (id : NodeId)
  | noParent (id : NodeId)
  | wrongType (id : NodeId) (expected actual : NodeType)
  | missingNamespace (type : NodeType) (space : Namespace)
  | slotNotFound (page : NodeId) (slot : String)
  deriving DecidableEq

def LookupFault.message : LookupFault → String
  | .nodeNotFound id => s!"Node not found: {id}"
  | .noParent id => s!"Node {id} has no parent"
  | .wrongType id expected actual =>
      s!"Node {id} is a {actual.name}, expected a {expected.name}"
  | .missingNamespace type space => s!"A {type.name} node has no {space.name} namespace"
  | .slotNotFound page slot => s!"Page {page} has no state slot {slot}"

namespace Document

def same (left right : Document) : Bool := left.root == right.root && left.nodes == right.nodes

def get? (document : Document) (id : NodeId) : Option Node := document.nodes.get? id

def node (document : Document) (id : NodeId) : Except LookupFault Node :=
  match document.get? id with
  | some node => .ok node
  | none => .error (.nodeNotFound id)

def nodeOfType (document : Document) (id : NodeId) (expected : NodeType) :
    Except LookupFault Node := do
  let node ← document.node id
  if node.type = expected then .ok node else .error (.wrongType id expected node.type)

def allNodes (document : Document) : List Node := document.nodes.values

def size (document : Document) : Nat := document.nodes.size

def hasName (document : Document) (name : String) : Bool := document.names.contains name

def nodeNamed? (document : Document) (name : String) : Option Node :=
  (document.names.get? name).bind document.get?

def parentOf? (document : Document) (node : Node) : Option Node :=
  node.parent?.bind document.get?

/-- The name of a node, or its identifier if there is no such node. -/
def labelOf (document : Document) (id : NodeId) : String :=
  match document.get? id with
  | some node => node.name
  | none => id

def indexOf (node : Node) : String :=
  match node.placement with
  | some placement => placement.index
  | none => ""

def comesBefore (left right : Node) : Bool :=
  indexOf left < indexOf right || (indexOf left = indexOf right && left.id ≤ right.id)

def standsIn (parent : NodeId) (slot : String) (node : Node) : Bool :=
  match node.placement with
  | some placement => placement.parent = parent && placement.slot = slot
  | none => false

def childrenIn (document : Document) (parent : NodeId) (slot : String) : List Node :=
  (document.allNodes.filter (standsIn parent slot)).mergeSort comesBefore

def slotUnder? (parent : NodeId) (node : Node) : Option String :=
  node.placement.bind fun placement =>
    if placement.parent = parent then some placement.slot else none

/-- The slots of a node that hold something, in the order of their names. -/
def slotsOf (document : Document) (parent : NodeId) : List String :=
  (SortedMap.ofList
    ((document.allNodes.filterMap (slotUnder? parent)).map fun slot => (slot, ()))).keys

def childSlots (document : Document) (parent : NodeId) : List (String × List Node) :=
  (document.slotsOf parent).map fun slot => (slot, document.childrenIn parent slot)

def children (document : Document) (parent : NodeId) : List Node :=
  (document.childSlots parent).flatMap Prod.snd

/-- What lies at most `depth` levels below a node, each node before what lies below it. -/
def below (document : Document) : Nat → NodeId → List Node
  | 0, _ => []
  | depth + 1, parent =>
      (document.children parent).flatMap fun child => child :: document.below depth child.id

/-- A tree is at most as deep as it has nodes. -/
def descendants (document : Document) (id : NodeId) : List Node :=
  document.below document.size id

def above (document : Document) : Nat → Node → List Node
  | 0, _ => []
  | height + 1, node =>
      match document.parentOf? node with
      | some parent => parent :: document.above height parent
      | none => []

def ancestors (document : Document) (id : NodeId) : List Node :=
  match document.get? id with
  | some node => (document.above document.size node).reverse
  | none => []

def pagesSlot : String := "pages"

def pages (document : Document) : List Node := document.childrenIn document.root pagesSlot

def pageNamed? (document : Document) (name : String) : Option Node :=
  (document.nodeNamed? name).filter fun node => node.type = .page

end Document

end PageBuilder
