import PageBuilder.Node.Codec
import PageBuilder.Proofs.Json.Decode

/-!
Nodes and what they hold are decoded from their trees.
-/

namespace PageBuilder

open Decode (Inverts fits_inside inverts_choice inverts_json inverts_map inverts_string pick_eq
  tagged_of_tree writtenFields)

variable {place : Place}

theorem Namespace.inverts_namespace : Inverts decode fun space => .string space.name :=
  inverts_choice lookup_name

namespace Bindable

theorem fields_distinct (value : Bindable) :
    (((Decode.tagName, JsonTree.string value.caseName) :: value.fields).map Prod.fst).Nodup := by
  cases value with
  | const | binding | script | secret => simp [fields, Decode.tagName]
  | bound text format => cases format <;> simp [fields, Decode.tagName]

theorem decode_one_eq {Value : Type} {decode : Decoder Value} {tree : Value → JsonTree}
    (inverts : Inverts decode tree) {name : String} {value : Value}
    (fits : (tree value).levels ≤ place.levels) :
    decodeOne decode name place (.named (writtenFields [(name, tree value)])) = some value := by
  have distinct : ([(name, tree value)].map Prod.fst).Nodup := List.nodup_singleton name
  rw [decodeOne, pick_eq distinct]
  simp only [List.map_cons, List.map_nil, List.lookup_cons_self, Option.map_some]
  exact inverts place value fits

theorem decode_binding_eq (place : Place) (node : NodeId) (prop : String) :
    decodeBinding place (.named (writtenFields (fields (.binding node prop)))) =
      some (.binding node prop) := by
  rw [decodeBinding, pick_eq (by simp [fields])]
  rfl

theorem decode_bound_eq (place : Place) (text : String) (format : Option BoundFormat) :
    decodeBound place (.named (writtenFields (fields (.bound text format)))) =
      some (.bound text format) := by
  cases format with
  | none =>
      rw [decodeBound, pick_eq (by simp [fields])]
      rfl
  | some format =>
      rw [decodeBound, pick_eq (by simp [fields])]
      cases format <;> rfl

theorem decode_text_eq (place : Place) (text : String) :
    decodeOne Decode.string "value" place (.named (writtenFields [("value", .string text)])) =
      some text :=
  decode_one_eq inverts_string (Nat.zero_le _)

theorem inverts_bindable : Inverts decode tree := by
  intro place value fits
  have tagged (number : Nat) (listed : caseNames.idxOf? value.caseName = some number) :
      Decode.tagged? caseNames place (.ofTree value.tree) =
        some (number, .named (writtenFields value.fields)) :=
    tagged_of_tree fits value.fields_distinct listed
  cases value with
  | const value =>
      have inner := fits_inside fits (List.mem_cons_of_mem _ List.mem_cons_self)
      rw [decode, tagged 0 rfl]
      exact congrArg (Option.map const) (decode_one_eq inverts_json inner)
  | binding node prop =>
      rw [decode, tagged 1 rfl]
      exact decode_binding_eq place.tagged node prop
  | bound text format =>
      rw [decode, tagged 2 rfl]
      exact decode_bound_eq place.tagged text format
  | script text =>
      rw [decode, tagged 3 rfl]
      exact congrArg (Option.map script) (decode_text_eq place.tagged text)
  | secret reference =>
      rw [decode, tagged 4 rfl]
      exact congrArg (Option.map secret) (decode_text_eq place.tagged reference)

theorem inverts_values : Inverts decodeMap mapTree := inverts_map inverts_bindable

end Bindable

theorem Placement.inverts_placement : Inverts decode tree := by
  intro place placement fits
  rw [tree] at fits
  rw [decode, tree, Decode.record_of_tree fits (by simp)]
  rfl

namespace NodeKind

theorem decode_field_eq {Value : Type} {decode : Decoder (SortedMap Value)}
    {tree : SortedMap Value → JsonTree} (inverts : Inverts decode tree) {name : String}
    {values : SortedMap Value} (fits : (tree values).levels ≤ place.levels)
    {fields : List (String × JsonTree)} (distinct : (fields.map Prod.fst).Nodup)
    (listed : fields.lookup name = some (tree values)) :
    decodeField decode name place (writtenFields fields) = some values := by
  rw [decodeField, Decode.named_field_eq distinct, listed]
  exact inverts place values fits

theorem inverts_state : Inverts (Decode.map Decode.json) fun state : SortedMap Json =>
    .object (state.entries.map fun entry => (entry.1, entry.2.tree)) :=
  inverts_map inverts_json

def treeFields (kind : NodeKind) : List (String × JsonTree) :=
  (Decode.tagName, .string kind.type.name) :: kind.fields

theorem tree_fields_distinct (kind : NodeKind) : (kind.treeFields.map Prod.fst).Nodup := by
  cases kind <;> simp [treeFields, fields, Decode.tagName]

theorem decode_fields_eq (kind : NodeKind)
    (fit : ∀ field ∈ kind.fields, field.2.levels ≤ place.levels) :
    decodeFields place (writtenFields kind.treeFields) = some kind := by
  have distinct := kind.tree_fields_distinct
  have tag : Decode.namedField? (writtenFields kind.treeFields) Decode.tagName =
      some (some (.string (some kind.type.name))) :=
    Decode.named_field_eq distinct Decode.tagName
  rw [decodeFields, tag]
  cases kind with
  | application | theme | api => rfl
  | page state =>
      have inner := fit _ List.mem_cons_self
      exact congrArg (Option.map page) (decode_field_eq inverts_state inner distinct rfl)
  | element props =>
      have inner := fit _ List.mem_cons_self
      exact congrArg (Option.map element)
        (decode_field_eq Bindable.inverts_values inner distinct rfl)
  | derivedState params =>
      have inner := fit _ List.mem_cons_self
      exact congrArg (Option.map derivedState)
        (decode_field_eq Bindable.inverts_values inner distinct rfl)
  | queryState params =>
      have inner := fit _ List.mem_cons_self
      exact congrArg (Option.map queryState)
        (decode_field_eq Bindable.inverts_values inner distinct rfl)
  | fetchedState params =>
      have inner := fit _ List.mem_cons_self
      exact congrArg (Option.map fetchedState)
        (decode_field_eq Bindable.inverts_values inner distinct rfl)

end NodeKind

namespace Node

def headerFields (node : Node) : List (String × JsonTree) :=
  [("id", .string node.id), ("name", .string node.name)] ++ node.placementFields
    ++ [("attributes", Bindable.mapTree node.attributes)]

theorem tree_eq (node : Node) :
    node.tree = .object (node.headerFields ++ node.kind.treeFields) := by
  simp [tree, headerFields, NodeKind.treeFields, Decode.tagName, type]

theorem fields_distinct (node : Node) :
    ((node.headerFields ++ node.kind.treeFields).map Prod.fst).Nodup := by
  rcases node with ⟨id, name, placement, attributes, kind⟩
  cases placement <;> cases kind <;>
    simp [headerFields, placementFields, NodeKind.treeFields, NodeKind.fields, Decode.tagName]

theorem other_fields (node : Node) :
    (writtenFields (node.headerFields ++ node.kind.treeFields)).filter
      (fun field => !headerNames.contains field.1) = writtenFields node.kind.treeFields := by
  rw [Decode.filter_written_fields fun name => !headerNames.contains name, List.filter_append]
  have header : node.headerFields.filter (fun field => !headerNames.contains field.1) = [] := by
    rcases node with ⟨id, name, placement, attributes, kind⟩
    cases placement <;> simp [headerFields, placementFields, headerNames]
  have kept : node.kind.treeFields.filter (fun field => !headerNames.contains field.1) =
      node.kind.treeFields := by
    cases node.kind <;>
      simp [NodeKind.treeFields, NodeKind.fields, headerNames, Decode.tagName]
  rw [header, kept, List.nil_append]

theorem header_eq (node : Node) :
    (Decode.Body.named (writtenFields (node.headerFields ++ node.kind.treeFields))).pick?
      headerNames = some [some (.ofTree (.string node.id)), some (.ofTree (.string node.name)),
        node.placement.map fun placement => .ofTree placement.tree,
        some (.ofTree (Bindable.mapTree node.attributes))] := by
  rw [pick_eq node.fields_distinct]
  rcases node with ⟨id, name, placement, attributes, kind⟩
  cases placement with
  | some placement => rfl
  | none => cases kind <;> rfl

theorem inverts_node : Inverts decode tree := by
  intro place node fits
  rw [tree_eq] at fits
  have opens : place.levels ≠ 0 := by
    rw [JsonTree.levels] at fits
    omega
  have inner {field : String × JsonTree}
      (member : field ∈ node.headerFields ++ node.kind.treeFields) :
      field.2.levels ≤ place.levels - 1 :=
    fits_inside fits member
  have kindFits : ∀ field ∈ node.kind.treeFields, field.2.levels ≤ place.inside.levels :=
    fun field member => inner (List.mem_append_right _ member)
  obtain ⟨values, read⟩ := Decode.values_of_fields kindFits
  have attributes : Bindable.decodeMap place.inside (.ofTree (Bindable.mapTree node.attributes)) =
      some node.attributes :=
    Bindable.inverts_values place.inside node.attributes
      (inner (List.mem_append_left _ (List.mem_append_right _ List.mem_cons_self)))
  have kind : NodeKind.decodeFields place.tagged (writtenFields node.kind.treeFields) =
      some node.kind :=
    node.kind.decode_fields_eq fun field member => kindFits field (List.mem_cons_of_mem _ member)
  have placement : Decode.optional Placement.decode place.inside
      (node.placement.map fun placement => .ofTree placement.tree) = some node.placement := by
    cases placed : node.placement with
    | none => rfl
    | some placement =>
        have member : ("parent", placement.tree) ∈ node.headerFields ++ node.kind.treeFields := by
          simp [headerFields, placementFields, placed]
        have tree := Placement.inverts_placement place.inside placement (inner member)
        exact congrArg (Option.map some) tree
  rw [tree_eq, Written.ofTree, decode]
  dsimp only
  rw [if_neg opens, Decode.map_field]
  dsimp only [bind, Option.bind]
  rw [other_fields, read]
  dsimp only
  rw [header_eq]
  dsimp only
  rw [placement, kind]
  dsimp only [Decode.defaulted]
  rw [attributes]
  rfl

end Node

end PageBuilder
