import PageBuilder.Proofs.Document.Codec

/-!
Nodes and documents as they are read where they were printed: all that makes a document of the nodes
stays, and only floats in their values may be others.
-/

namespace PageBuilder

namespace JsonTree

theorem reread_fields_eq (fields : List (String × JsonTree)) :
    rereadFields fields = fields.map fun field => (field.1, field.2.reread) := by
  induction fields with
  | nil => rfl
  | cons field rest ih => rw [rereadFields, ih, List.map_cons]

mutual

theorem levels_reread : ∀ tree : JsonTree, tree.reread.levels = tree.levels
  | .null | .bool _ | .number _ | .string _ => rfl
  | .array items => congrArg (· + 1) (levels_reread_items items)
  | .object fields => congrArg (· + 1) (levels_reread_fields fields)

theorem levels_reread_items : ∀ items : List JsonTree,
    levelsOfItems (rereadItems items) = levelsOfItems items
  | [] => rfl
  | item :: rest => by
      rw [rereadItems, levelsOfItems, levelsOfItems, levels_reread item, levels_reread_items rest]

theorem levels_reread_fields : ∀ fields : List (String × JsonTree),
    levelsOfFields (rereadFields fields) = levelsOfFields fields
  | [] => rfl
  | (_, value) :: rest => by
      rw [rereadFields, levelsOfFields, levelsOfFields, levels_reread value,
        levels_reread_fields rest]

end

mutual

theorem ordered_reread : ∀ tree : JsonTree, tree.Ordered → tree.reread.Ordered
  | .null, _ | .bool _, _ | .number _, _ | .string _, _ => trivial
  | .array items, ordered => ordered_reread_items items ordered
  | .object fields, ordered => by
      refine ⟨?_, ordered_reread_fields fields ordered.2⟩
      rw [reread_fields_eq]
      exact List.pairwise_map.2 ordered.1

theorem ordered_reread_items : ∀ items : List JsonTree,
    OrderedItems items → OrderedItems (rereadItems items)
  | [], _ => trivial
  | item :: rest, ordered =>
      ⟨ordered_reread item ordered.1, ordered_reread_items rest ordered.2⟩

theorem ordered_reread_fields : ∀ fields : List (String × JsonTree),
    OrderedFields fields → OrderedFields (rereadFields fields)
  | [], _ => trivial
  | (_, value) :: rest, ordered =>
      ⟨ordered_reread value ordered.1, ordered_reread_fields rest ordered.2⟩

end

/-- The tree of a map is read as that of the map with each value as it is read. -/
theorem reread_map {Value : Type} {tree : Value → JsonTree} {change : Value → Value}
    (same : ∀ value, (tree value).reread = tree (change value)) (values : SortedMap Value) :
    (Decode.mapTree tree values).reread = Decode.mapTree tree (values.mapValues change) := by
  rw [Decode.mapTree, Decode.mapTree, reread, reread_fields_eq, SortedMap.mapValues, List.map_map,
    List.map_map]
  congr 1
  apply List.map_congr_left
  intro entry _
  exact congrArg (Prod.mk entry.1) (same entry.2)

end JsonTree

def Json.reread (value : Json) : Json :=
  ⟨value.tree.reread, JsonTree.ordered_reread value.tree value.ordered⟩

namespace Bindable

def reread : Bindable → Bindable
  | .const value => .const value.reread
  | value => value

theorem tree_reread (value : Bindable) : value.tree.reread = value.reread.tree := by
  cases value with
  | const | binding | script | secret => rfl
  | bound text format => cases format <;> rfl

theorem map_tree_reread (values : BindableMap) :
    (mapTree values).reread = mapTree (values.mapValues reread) :=
  JsonTree.reread_map tree_reread values

end Bindable

namespace NodeKind

def reread : NodeKind → NodeKind
  | .page state => .page (state.mapValues Json.reread)
  | .element props => .element (props.mapValues Bindable.reread)
  | .derivedState params => .derivedState (params.mapValues Bindable.reread)
  | .queryState params => .queryState (params.mapValues Bindable.reread)
  | .fetchedState params => .fetchedState (params.mapValues Bindable.reread)
  | kind => kind

theorem type_reread (kind : NodeKind) : kind.reread.type = kind.type := by
  cases kind <;> rfl

theorem state_reread (state : SortedMap Json) :
    (Decode.mapTree Json.tree state).reread =
      Decode.mapTree Json.tree (state.mapValues Json.reread) :=
  JsonTree.reread_map (fun value => (rfl : value.tree.reread = value.reread.tree)) state

theorem fields_reread (kind : NodeKind) :
    JsonTree.rereadFields kind.fields = kind.reread.fields := by
  rw [JsonTree.reread_fields_eq]
  cases kind with
  | application | theme | api => rfl
  | page state => exact congrArg (fun tree => [("state", tree)]) (state_reread state)
  | element props => exact congrArg (fun tree => [("props", tree)]) (Bindable.map_tree_reread props)
  | derivedState params | queryState params | fetchedState params =>
      exact congrArg (fun tree => [("params", tree)]) (Bindable.map_tree_reread params)

end NodeKind

namespace Node

def reread (node : Node) : Node :=
  { node with
    attributes := node.attributes.mapValues Bindable.reread
    kind := node.kind.reread }

theorem type_reread (node : Node) : node.reread.type = node.type := node.kind.type_reread

theorem tree_reread (node : Node) : node.tree.reread = node.reread.tree := by
  have kind := node.kind.fields_reread
  rw [JsonTree.reread_fields_eq] at kind
  have placed : node.placementFields.map (fun field => (field.1, field.2.reread)) =
      node.reread.placementFields := by
    obtain ⟨id, name, placement, attributes, kind⟩ := node
    cases placement <;> rfl
  rw [tree, tree, JsonTree.reread, JsonTree.reread_fields_eq]
  simp only [List.map_append, List.map_cons, List.map_nil, kind, placed, type_reread,
    Bindable.map_tree_reread]
  rfl

end Node

namespace Document

def reread (document : Document) : Document :=
  { document with nodes := document.nodes.mapValues Node.reread }

variable {document : Document}

theorem tree_reread (document : Document) : document.tree.reread = document.reread.tree := by
  have nodes := JsonTree.reread_map Node.tree_reread document.nodes
  exact congrArg (fun nodes => JsonTree.object [("root", .string document.root), ("nodes", nodes)])
    nodes

theorem get_reread (id : NodeId) : document.reread.get? id = (document.get? id).map Node.reread :=
  SortedMap.get_map_values Node.reread document.nodes id

theorem parent_id_reread (id : NodeId) : document.reread.parentId? id = document.parentId? id := by
  rw [parentId?, parentId?, get_reread, Option.bind_map]
  rfl

theorem Under.reread {upper id : NodeId} {distance : Nat}
    (under : Under document upper distance id) : Under document.reread upper distance id := by
  induction under with
  | self => exact .self
  | up step _ ih => exact .up ((parent_id_reread _).trans step) ih

theorem get_reread_iff {id : NodeId} {node : Node} : document.reread.get? id = some node ↔
    ∃ old, document.get? id = some old ∧ old.reread = node := by
  rw [get_reread, Option.map_eq_some_iff]

theorem WellFormed.reread (wellFormed : document.WellFormed) : document.reread.WellFormed where
  root := by
    obtain ⟨root, here, type, unplaced⟩ := wellFormed.root
    exact ⟨root.reread, get_reread_iff.2 ⟨root, here, rfl⟩, root.type_reread.trans type, unplaced⟩
  stored := by
    intro id node here
    obtain ⟨old, stored, rfl⟩ := get_reread_iff.1 here
    have own : old.id = id := wellFormed.stored stored
    exact own
  named := by
    intro left right first second one other same
    obtain ⟨old, here, rfl⟩ := get_reread_iff.1 one
    obtain ⟨older, there, rfl⟩ := get_reread_iff.1 other
    exact wellFormed.named here there same
  unplaced := by
    intro id node here unplaced
    obtain ⟨old, stored, rfl⟩ := get_reread_iff.1 here
    exact wellFormed.unplaced stored unplaced
  fits := by
    intro id node placement here placed
    obtain ⟨old, stored, rfl⟩ := get_reread_iff.1 here
    obtain ⟨parent, above, fits⟩ := wellFormed.fits stored placed
    refine ⟨parent.reread, get_reread_iff.2 ⟨parent, above, rfl⟩, ?_⟩
    rw [Node.type_reread, Node.type_reread]
    exact fits
  keyed := by
    intro id node placement here placed
    obtain ⟨old, stored, rfl⟩ := get_reread_iff.1 here
    exact wellFormed.keyed stored placed
  apart := by
    intro left right first second placement one other placed again
    obtain ⟨old, here, rfl⟩ := get_reread_iff.1 one
    obtain ⟨older, there, rfl⟩ := get_reread_iff.1 other
    exact wellFormed.apart here there placed again
  reaches := by
    intro id node here
    obtain ⟨old, stored, rfl⟩ := get_reread_iff.1 here
    obtain ⟨distance, under⟩ := wellFormed.reaches stored
    exact ⟨distance, under.reread⟩

/-- What makes a document of nodes does not depend on the values that they hold. -/
theorem Valid.reread (valid : document.Valid) : document.reread.Valid := by
  refine ⟨valid.toWellFormed.reread, ?_⟩
  intro name id
  rw [show document.reread.names = document.names from rfl, valid.indexed name id]
  constructor
  · intro held
    obtain ⟨node, here, named⟩ := held
    exact ⟨node.reread, get_reread_iff.2 ⟨node, here, rfl⟩, named⟩
  · intro held
    obtain ⟨node, here, named⟩ := held
    obtain ⟨old, stored, rfl⟩ := get_reread_iff.1 here
    exact ⟨old, stored, named⟩

end Document

end PageBuilder
