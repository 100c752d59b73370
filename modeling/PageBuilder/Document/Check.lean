import PageBuilder.Document.Basic
import PageBuilder.OrderKey

/-!
What makes nodes a document: one unplaced application node at the root, every other node placed
below a node of a fitting type and reaching the root, and no name, identifier or place used twice.
-/

namespace PageBuilder

inductive Violation where
  | rootMissing (root : NodeId)
  | rootType (root : NodeId) (type : NodeType)
  | rootPlaced (root : NodeId)
  | storedElsewhere (key id : NodeId)
  | nameRepeated (name : String)
  | detached (id : NodeId)
  | parentMissing (id parent : NodeId)
  | parentType (lower : NodeType) (child : NodeId) (upper : NodeType) (parent : NodeId)
  | badIndex (id : NodeId) (fault : OrderKey.Fault)
  | placeRepeated (placement : Placement)
  | unreachable (id : NodeId)
  deriving DecidableEq

def Violation.message : Violation → String
  | .rootMissing root => s!"root {root} is missing"
  | .rootType root type => s!"root {root} is a {type.name}"
  | .rootPlaced root => s!"root {root} has a parent"
  | .storedElsewhere key id => s!"node stored under {key} has id {id}"
  | .nameRepeated name => s!"name {name} is used more than once"
  | .detached id => s!"node {id} is detached"
  | .parentMissing id parent => s!"node {id} has missing parent {parent}"
  | .parentType lower child upper parent =>
      s!"{lower.name} {child} can't be placed under {upper.name} {parent}"
  | .badIndex id fault => s!"node {id}: {fault.message}"
  | .placeRepeated placement =>
      s!"index {placement.index} is used twice under {placement.parent}.{placement.slot}"
  | .unreachable id => s!"node {id} is not reachable from the root"

namespace Document

def reachesRoot (document : Document) : Nat → Node → Bool
  | 0, _ => false
  | height + 1, node =>
      if node.id = document.root then true
      else
        match document.parentOf? node with
        | some parent => document.reachesRoot height parent
        | none => false

def rootViolations (document : Document) : List Violation :=
  match document.get? document.root with
  | none => [.rootMissing document.root]
  | some root =>
      (if root.type = .application then [] else [.rootType root.id root.type])
        ++ (if root.placement.isNone then [] else [.rootPlaced root.id])

def parentViolations (document : Document) (node : Node) (placement : Placement) :
    List Violation :=
  match document.get? placement.parent with
  | none => [.parentMissing node.id placement.parent]
  | some parent =>
      if node.type.fitsUnder parent.type then []
      else [.parentType node.type node.id parent.type parent.id]

def indexViolations (node : Node) (placement : Placement) : List Violation :=
  match OrderKey.check placement.index with
  | .ok () => []
  | .error fault => [.badIndex node.id fault]

/-- `earlier` are the nodes checked before this one. -/
def placementViolations (document : Document) (earlier : List Node) (node : Node) :
    List Violation :=
  match node.placement with
  | none => if node.id = document.root then [] else [.detached node.id]
  | some placement =>
      document.parentViolations node placement
        ++ indexViolations node placement
        ++ (if earlier.any fun other => other.placement = some placement
            then [.placeRepeated placement] else [])
        ++ (if document.reachesRoot document.size node then [] else [.unreachable node.id])

def nodeViolations (document : Document) (earlier : List Node) (entry : NodeId × Node) :
    List Violation :=
  let node := entry.2
  (if entry.1 = node.id then [] else [.storedElsewhere entry.1 node.id])
    ++ (if earlier.any fun other => other.name = node.name
        then [.nameRepeated node.name] else [])
    ++ document.placementViolations earlier node

def nodesViolations (document : Document) (earlier : List Node) :
    List (NodeId × Node) → List Violation
  | [] => []
  | entry :: rest =>
      document.nodeViolations earlier entry
        ++ document.nodesViolations (entry.2 :: earlier) rest

def violations (document : Document) : List Violation :=
  document.rootViolations ++ document.nodesViolations [] document.nodes.entries

/-- Takes nodes as a document. The names are read off the nodes. -/
def ofNodes (root : NodeId) (nodes : SortedMap Node) : Except (List Violation) Document :=
  let names := SortedMap.ofList (nodes.values.map fun node => (node.name, node.id))
  let document : Document := ⟨root, nodes, names⟩
  match document.violations with
  | [] => .ok document
  | violations => .error violations

end Document

end PageBuilder
