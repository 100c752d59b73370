import PageBuilder.Proofs.Json.Nesting
import PageBuilder.Proofs.Node.Codec

/-!
How deep nodes nest that are decoded or changed, by what their values do.
-/

namespace PageBuilder

open Decode (Bounded Fits bounded_json bounded_map fits_map opens_of_tagged whole_of_tagged)
open JsonTree (levels_of_fields_le)

variable {place : Place}

namespace Bindable

theorem fits_bindable : Fits decode tree := by
  intro place value other read
  rw [decode, Option.bind_eq_bind, Option.bind_eq_some_iff] at read
  obtain ⟨made, tagged, _⟩ := read
  obtain ⟨whole, found⟩ := whole_of_tagged tagged
  exact JsonTree.fits_of_json value.tree place.levels found

theorem fits_values : Fits decodeMap mapTree := fits_map fits_bindable

theorem decode_one_some {Value : Type} {decode : Decoder Value} {name : String}
    {body : Decode.Body} {value : Value} (read : decodeOne decode name place body = some value) :
    ∃ written, decode place written = some value := by
  rw [decodeOne, Option.bind_eq_bind, Option.bind_eq_some_iff] at read
  obtain ⟨picked, -, read⟩ := read
  split at read
  · rename_i written
    cases written with
    | none => cases read
    | some written => exact ⟨written, read⟩
  · cases read

theorem decode_binding_some {body : Decode.Body} {value : Bindable}
    (read : decodeBinding place body = some value) : ∃ node prop, value = .binding node prop := by
  rw [decodeBinding, Option.bind_eq_bind, Option.bind_eq_some_iff] at read
  obtain ⟨picked, -, read⟩ := read
  split at read
  · simp only [Option.bind_eq_bind, Option.bind_eq_some_iff] at read
    obtain ⟨node, _, prop, _, same⟩ := read
    exact ⟨node, prop, (Option.some.inj same).symm⟩
  · cases read

theorem decode_bound_some {body : Decode.Body} {value : Bindable}
    (read : decodeBound place body = some value) : ∃ text format, value = .bound text format := by
  rw [decodeBound, Option.bind_eq_bind, Option.bind_eq_some_iff] at read
  obtain ⟨picked, -, read⟩ := read
  split at read
  · simp only [Option.bind_eq_bind, Option.bind_eq_some_iff] at read
    obtain ⟨text, _, format, _, same⟩ := read
    exact ⟨text, format, (Option.some.inj same).symm⟩
  · cases read

theorem levels_of_const (value : Json) : (tree (.const value)).levels = value.tree.levels + 1 := by
  simp [tree, fields, JsonTree.levels, JsonTree.levelsOfFields]

theorem levels_of_bound (text : String) (format : Option BoundFormat) :
    (tree (.bound text format)).levels = 1 := by
  cases format <;> rfl

theorem bounded_bindable : Bounded decode tree := by
  intro place written value read
  rw [decode, Option.bind_eq_bind, Option.bind_eq_some_iff] at read
  obtain ⟨⟨number, body⟩, tagged, read⟩ := read
  have opens := opens_of_tagged tagged
  dsimp only at read
  split at read
  · obtain ⟨value, made, rfl⟩ := Option.map_eq_some_iff.1 read
    obtain ⟨written, taken⟩ := decode_one_some made
    have inner : value.tree.levels ≤ place.levels - 1 := bounded_json _ _ _ taken
    rw [levels_of_const]
    omega
  · obtain ⟨node, prop, rfl⟩ := decode_binding_some read
    exact opens
  · obtain ⟨text, format, rfl⟩ := decode_bound_some read
    rw [levels_of_bound]
    exact opens
  · obtain ⟨text, _, rfl⟩ := Option.map_eq_some_iff.1 read
    exact opens
  · obtain ⟨reference, _, rfl⟩ := Option.map_eq_some_iff.1 read
    exact opens

theorem bounded_values : Bounded decodeMap mapTree := bounded_map bounded_bindable

end Bindable

/-- A map that is not written is empty, which is one level. -/
theorem levels_of_defaulted {Value : Type} {decode : Decoder (SortedMap Value)}
    {tree : Value → JsonTree} (bounded : Bounded decode (Decode.mapTree tree))
    {written : Option Written} {values : SortedMap Value}
    (read : Decode.defaulted .empty decode place written = some values) :
    (Decode.mapTree tree values).levels ≤ max 1 place.levels := by
  cases written with
  | none =>
      rw [← Option.some.inj read]
      exact Nat.le_max_left _ _
  | some written => exact Nat.le_trans (bounded _ _ _ read) (Nat.le_max_right _ _)

namespace NodeKind

theorem decode_field_levels {Value : Type} {decode : Decoder (SortedMap Value)}
    {tree : Value → JsonTree} (bounded : Bounded decode (Decode.mapTree tree)) {name : String}
    {fields : List (String × Written)} {values : SortedMap Value}
    (read : decodeField decode name place fields = some values) :
    (Decode.mapTree tree values).levels ≤ max 1 place.levels := by
  rw [decodeField, Option.bind_eq_bind, Option.bind_eq_some_iff] at read
  obtain ⟨field, _, read⟩ := read
  exact levels_of_defaulted bounded read

/-- What a decoded kind holds nests no deeper than its place allows, or is empty. -/
theorem decode_fields_levels {fields : List (String × Written)} {kind : NodeKind}
    (read : decodeFields place fields = some kind) :
    ∀ field ∈ kind.fields, field.2.levels ≤ max 1 place.levels := by
  simp only [decodeFields, Option.bind_eq_bind, Option.bind_eq_some_iff] at read
  obtain ⟨_, _, _, _, number, _, read⟩ := read
  split at read
  · cases read
    exact fun field member => absurd member List.not_mem_nil
  · cases read
    exact fun field member => absurd member List.not_mem_nil
  · cases read
    exact fun field member => absurd member List.not_mem_nil
  · obtain ⟨state, made, rfl⟩ := Option.map_eq_some_iff.1 read
    exact List.forall_mem_singleton.2 (decode_field_levels (bounded_map bounded_json) made)
  all_goals
    obtain ⟨values, made, rfl⟩ := Option.map_eq_some_iff.1 read
    exact List.forall_mem_singleton.2 (decode_field_levels Bindable.bounded_values made)

variable {limit : Nat} {change : BindableMap → BindableMap}

theorem levels_of_map_props (kind : NodeKind)
    (kept : ∀ values, (Bindable.mapTree values).levels ≤ limit →
      (Bindable.mapTree (change values)).levels ≤ limit)
    (within : ∀ field ∈ kind.fields, field.2.levels ≤ limit) :
    ∀ field ∈ (kind.mapProps change).fields, field.2.levels ≤ limit := by
  cases kind with
  | element props =>
      have inner := within ("props", Bindable.mapTree props) List.mem_cons_self
      exact List.forall_mem_singleton.2 (kept props inner)
  | application | theme | api | page | derivedState | queryState | fetchedState => exact within

theorem levels_of_map_params (kind : NodeKind)
    (kept : ∀ values, (Bindable.mapTree values).levels ≤ limit →
      (Bindable.mapTree (change values)).levels ≤ limit)
    (within : ∀ field ∈ kind.fields, field.2.levels ≤ limit) :
    ∀ field ∈ (kind.mapParams change).fields, field.2.levels ≤ limit := by
  cases kind with
  | derivedState params | queryState params | fetchedState params =>
      have inner := within ("params", Bindable.mapTree params) List.mem_cons_self
      exact List.forall_mem_singleton.2 (kept params inner)
  | application | theme | api | page | element => exact within

theorem levels_of_map_state (kind : NodeKind) {change : SortedMap Json → SortedMap Json}
    (kept : ∀ state, (Decode.mapTree Json.tree state).levels ≤ limit →
      (Decode.mapTree Json.tree (change state)).levels ≤ limit)
    (within : ∀ field ∈ kind.fields, field.2.levels ≤ limit) :
    ∀ field ∈ (kind.mapState change).fields, field.2.levels ≤ limit := by
  cases kind with
  | page state =>
      have inner := within ("state", Decode.mapTree Json.tree state) List.mem_cons_self
      exact List.forall_mem_singleton.2 (kept state inner)
  | application | theme | api | element | derivedState | queryState | fetchedState => exact within

end NodeKind

namespace Node

/-- A node nests one level deeper than the values that it holds, which are maps. -/
theorem levels_le_iff {node : Node} {limit : Nat} : node.tree.levels ≤ limit + 1 ↔
    (Bindable.mapTree node.attributes).levels ≤ limit ∧
      ∀ field ∈ node.kind.fields, field.2.levels ≤ limit := by
  rw [tree, JsonTree.levels, Nat.add_le_add_iff_right, levels_of_fields_le]
  constructor
  · intro within
    constructor
    · exact within ("attributes", Bindable.mapTree node.attributes) (by simp)
    · exact fun field member => within field (List.mem_append_right _ member)
  · intro within field member
    obtain ⟨attributes, kind⟩ := within
    have opens : 1 ≤ limit := Nat.le_trans (Nat.le_add_left 1 _) attributes
    simp only [List.mem_append, List.mem_cons, List.not_mem_nil, or_false] at member
    obtain (((rfl | rfl) | placed) | rfl | rfl) | held := member
    · exact Nat.zero_le _
    · exact Nat.zero_le _
    · rw [placementFields] at placed
      split at placed
      · rw [List.mem_singleton.1 placed]
        exact opens
      · cases placed
    · exact attributes
    · exact Nat.zero_le _
    · exact kind field held

/-- What a node is decoded from: the fields that are not of the header all have values, and the
attributes and the kind are decoded one level further in. -/
theorem parts_of_decode {entries : List (Option String × Written)} {node : Node}
    (read : decode place (.object entries) = some node) :
    0 < place.levels ∧ ∃ fields, entries.mapM Decode.field = some fields ∧
      ∃ values, (fields.filter fun field => !headerNames.contains field.1).mapM
          (fun field => field.2.json? place.inside.levels) = some values ∧
        ∃ id name parent attributes, (Decode.Body.named fields).pick? headerNames =
            some [id, name, parent, attributes] ∧
          Decode.defaulted .empty Bindable.decodeMap place.inside attributes =
            some node.attributes ∧
          NodeKind.decodeFields place.tagged
              (fields.filter fun field => !headerNames.contains field.1) = some node.kind := by
  rw [decode] at read
  dsimp only at read
  split at read
  · cases read
  rename_i opens
  rw [Option.bind_eq_bind, Option.bind_eq_some_iff] at read
  obtain ⟨fields, named, read⟩ := read
  rw [Option.bind_eq_bind, Option.bind_eq_some_iff] at read
  obtain ⟨values, whole, read⟩ := read
  rw [Option.bind_eq_bind, Option.bind_eq_some_iff] at read
  obtain ⟨header, picked, read⟩ := read
  refine ⟨Nat.pos_of_ne_zero opens, fields, named, values, whole, ?_⟩
  clear named whole
  split at read
  · rename_i id name parent attributes
    simp only [Option.bind_eq_bind, Option.bind_eq_some_iff] at read
    obtain ⟨_, _, _, _, _, _, _, inner, _, kind, same⟩ := read
    cases same
    exact ⟨id, name, parent, attributes, picked, inner, kind⟩
  · cases read

theorem fits_node : Decode.Fits decode tree := by
  intro place node other read
  rw [tree_eq, Written.ofTree] at read
  obtain ⟨opens, fields, named, values, whole, id, name, parent, attributes, picked, inner, _⟩ :=
    parts_of_decode read
  rw [Decode.map_field] at named
  cases named
  rw [header_eq] at picked
  cases picked
  rw [other_fields] at whole
  have limit : place.levels = place.inside.levels + 1 := (Nat.succ_pred_eq_of_pos opens).symm
  rw [limit]
  apply levels_le_iff.2
  constructor
  · exact Bindable.fits_values _ _ _ inner
  · intro field member
    have listed : (field.1, Written.ofTree field.2) ∈
        Decode.writtenFields node.kind.treeFields :=
      List.mem_map_of_mem (List.mem_cons_of_mem _ member)
    obtain ⟨value, found⟩ := Decode.value_of_item whole listed
    exact JsonTree.fits_of_json field.2 place.inside.levels found

/-- A node has two levels where it holds no values, as what is not written is empty. -/
theorem levels_of_decoded {written : Written} {node : Node}
    (read : decode place written = some node) : node.tree.levels ≤ max 2 place.levels := by
  cases written with
  | null | bool | number | string | array => cases read
  | object entries =>
      obtain ⟨opens, fields, _, _, _, _, _, _, attributes, _, inner, kind⟩ := parts_of_decode read
      have limit : max 2 place.levels = max 1 (place.levels - 1) + 1 := by omega
      rw [limit]
      apply levels_le_iff.2
      constructor
      · exact levels_of_defaulted Bindable.bounded_values inner
      · exact NodeKind.decode_fields_levels kind

theorem exists_limit {node : Node} {limit : Nat} (within : node.tree.levels ≤ limit) :
    ∃ inner, limit = inner + 1 := by
  rw [tree, JsonTree.levels] at within
  exact Nat.exists_eq_add_one.2 (Nat.lt_of_lt_of_le (Nat.succ_pos _) within)

theorem levels_of_same {node other : Node} {limit : Nat} (within : node.tree.levels ≤ limit)
    (attributes : other.attributes = node.attributes) (kind : other.kind = node.kind) :
    other.tree.levels ≤ limit := by
  obtain ⟨inner, rfl⟩ := exists_limit within
  rw [levels_le_iff] at within ⊢
  rw [attributes, kind]
  exact within

/-- A change of values nests no deeper if it does so for the values themselves. -/
theorem levels_of_map_values {node : Node} {limit : Nat} {change : BindableMap → BindableMap}
    (within : node.tree.levels ≤ limit)
    (kept : ∀ values, (Bindable.mapTree values).levels < limit →
      (Bindable.mapTree (change values)).levels < limit) (space : Namespace) :
    (node.mapValues change space).tree.levels ≤ limit := by
  obtain ⟨inner, rfl⟩ := exists_limit within
  rw [levels_le_iff] at within ⊢
  simp only [Nat.lt_succ_iff] at kept
  obtain ⟨attributes, kind⟩ := within
  cases space with
  | attributes => exact ⟨kept _ attributes, kind⟩
  | props => exact ⟨attributes, node.kind.levels_of_map_props kept kind⟩
  | params => exact ⟨attributes, node.kind.levels_of_map_params kept kind⟩

theorem levels_of_map_state {node : Node} {limit : Nat}
    {change : SortedMap Json → SortedMap Json} (within : node.tree.levels ≤ limit)
    (kept : ∀ state, (Decode.mapTree Json.tree state).levels < limit →
      (Decode.mapTree Json.tree (change state)).levels < limit) :
    ({ node with kind := node.kind.mapState change } : Node).tree.levels ≤ limit := by
  obtain ⟨inner, rfl⟩ := exists_limit within
  rw [levels_le_iff] at within ⊢
  simp only [Nat.lt_succ_iff] at kept
  obtain ⟨attributes, kind⟩ := within
  exact ⟨attributes, node.kind.levels_of_map_state kept kind⟩

end Node

end PageBuilder
