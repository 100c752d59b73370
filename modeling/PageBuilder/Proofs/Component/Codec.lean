import PageBuilder.Component.Catalog
import PageBuilder.Proofs.Json.Nesting
import PageBuilder.Proofs.Json.Reader

/-!
Component definitions are read back from their texts, except that a default value of null is lost:
it is written, but an optional field that says null is read like one that is left out.
-/

namespace PageBuilder

open Decode (Fits Inverts fits_map mapTree)

variable {place : Place}

namespace JsonTree

theorem has_float_fields_iff {fields : List (String × JsonTree)} :
    hasFloatFields fields = false ↔ ∀ field ∈ fields, field.2.hasFloat = false := by
  induction fields with
  | nil => simp [hasFloatFields]
  | cons field rest ih =>
      rw [hasFloatFields, Bool.or_eq_false_iff, ih, List.forall_mem_cons]

end JsonTree

def Json.unlessNull (value : Json) : Option Json :=
  match value.tree with
  | .null => none
  | _ => some value

theorem Json.unless_null_cases (value : Json) :
    value = .null ∧ value.unlessNull = none ∨ value ≠ .null ∧ value.unlessNull = some value := by
  rw [unlessNull]
  split
  · rename_i null
    exact Or.inl ⟨ext_tree null, rfl⟩
  · rename_i other
    refine Or.inr ⟨?_, rfl⟩
    rintro rfl
    exact other rfl

namespace Decode

theorem option_json_eq {value : Json} (fits : value.tree.levels ≤ place.levels) :
    option json place (.ofTree value.tree) = some value.unlessNull := by
  have read := inverts_json place value fits
  rw [Json.unlessNull]
  cases held : value.tree with
  | null => rfl
  | bool | number | string | array | object =>
      rw [held] at read
      rw [Written.ofTree] at read ⊢
      rw [option, read]
      · rfl
      · intro null
        cases null

theorem fits_json : Fits json Json.tree := fun place value _ read =>
  value.tree.fits_of_json place.levels read

/-- Null has no levels, and all else is left to the decoder. -/
theorem fits_option {Value : Type} {decode : Decoder Value} {tree : Value → JsonTree}
    (fits : Fits decode tree) {value : Value} {made : Option Value}
    (read : option decode place (.ofTree (tree value)) = some made) :
    (tree value).levels ≤ place.levels := by
  cases held : (tree value) with
  | null => exact Nat.zero_le _
  | bool | number | string | array | object =>
      rw [held, Written.ofTree] at read
      obtain ⟨other, taken, _⟩ := Option.map_eq_some_iff.1 read
      rw [← held]
      exact fits place value other (by rw [held]; exact taken)

end Decode

namespace PropDefinition

variable {prop : PropDefinition}

/-- What the definition is read back as. -/
def withoutNull (prop : PropDefinition) : PropDefinition :=
  { prop with default := prop.default.bind Json.unlessNull }

theorem without_null_eq_iff : prop.withoutNull = prop ↔ prop.default ≠ some .null := by
  obtain ⟨kind, default, event⟩ := prop
  cases default with
  | none => exact iff_of_true rfl nofun
  | some value =>
      rcases value.unless_null_cases with ⟨null, lost⟩ | ⟨other, kept⟩
      · refine iff_of_false ?_ fun differs => differs (congrArg some null)
        intro same
        have default := congrArg PropDefinition.default same
        rw [withoutNull, Option.bind_some, lost] at default
        cases default
      · refine iff_of_true ?_ fun same => other (Option.some.inj same)
        rw [withoutNull, Option.bind_some, kept]

def eventTree (event : String) : JsonTree := .object [("changeEvent", .string event)]

theorem fits_event : Fits decodeEvent eventTree := by
  intro place event other read
  rw [decodeEvent, Option.bind_eq_bind, Option.bind_eq_some_iff] at read
  obtain ⟨picked, opened, _⟩ := read
  exact Decode.opens_of_record opened

theorem inverts_event : Inverts decodeEvent eventTree := by
  intro place event fits
  rw [eventTree] at fits ⊢
  rw [decodeEvent, Decode.record_of_tree fits (by simp)]
  rfl

def fields (prop : PropDefinition) : List (String × JsonTree) :=
  ("kind", .string prop.kind.name) :: optionalField "defaultValue" (prop.default.map Json.tree)
    ++ optionalField "controlled" (prop.changeEvent.map eventTree)

theorem fields_distinct (prop : PropDefinition) : (prop.fields.map Prod.fst).Nodup := by
  obtain ⟨kind, default, event⟩ := prop
  cases default <;> cases event <;> simp [fields, optionalField]

theorem picked_fields (prop : PropDefinition) (opens : place.levels ≠ 0) :
    Decode.record? place (.ofTree prop.tree) ["kind", "defaultValue", "controlled"] =
      some [some (.string (some prop.kind.name)), prop.default.map fun value => .ofTree value.tree,
        prop.changeEvent.map fun event => .ofTree (eventTree event)] := by
  have picked := Decode.record_of_fields opens prop.fields_distinct
    ["kind", "defaultValue", "controlled"]
  refine picked.trans ?_
  obtain ⟨kind, default, event⟩ := prop
  cases default <;> cases event <;> rfl

/-- A definition nests one level deeper than what it holds. -/
theorem levels_le_iff {limit : Nat} : prop.tree.levels ≤ limit + 1 ↔
    (∀ value ∈ prop.default, value.tree.levels ≤ limit) ∧
      ∀ event ∈ prop.changeEvent, (eventTree event).levels ≤ limit := by
  have fields : prop.tree = .object prop.fields := rfl
  rw [fields, JsonTree.levels, Nat.add_le_add_iff_right, JsonTree.levels_of_fields_le]
  obtain ⟨kind, default, event⟩ := prop
  cases default <;> cases event <;> simp [PropDefinition.fields, optionalField, JsonTree.levels]

theorem decode_tree (fits : prop.tree.levels ≤ place.levels) :
    decode place (.ofTree prop.tree) = some prop.withoutNull := by
  have opens : 0 < place.levels := Nat.lt_of_lt_of_le (Nat.succ_pos _) fits
  have within := fits
  rw [← Nat.sub_add_cancel opens, levels_le_iff] at within
  have kind : PropKind.decode place.inside (.string (some prop.kind.name)) = some prop.kind :=
    PropKind.lookup_name prop.kind
  have default : Decode.optional Decode.json place.inside
      (prop.default.map fun value => .ofTree value.tree) = some prop.withoutNull.default := by
    rw [withoutNull]
    cases held : prop.default with
    | none => rfl
    | some value => exact Decode.option_json_eq (within.1 value held)
  have event : Decode.optional decodeEvent place.inside
      (prop.changeEvent.map fun event => .ofTree (eventTree event)) = some prop.changeEvent := by
    cases held : prop.changeEvent with
    | none => rfl
    | some event => exact congrArg (Option.map some) (inverts_event _ _ (within.2 event held))
  rw [decode, prop.picked_fields (Nat.ne_of_gt opens)]
  dsimp only [bind, Option.bind, Decode.required]
  rw [kind, default, event]
  rfl

theorem fits_prop : Fits decode tree := by
  intro place prop other read
  rw [decode, Option.bind_eq_bind, Option.bind_eq_some_iff] at read
  obtain ⟨picked, opened, read⟩ := read
  have opens := Decode.opens_of_record opened
  rw [prop.picked_fields (Nat.ne_of_gt opens)] at opened
  cases opened
  simp only [Option.bind_eq_bind, Option.bind_eq_some_iff] at read
  obtain ⟨_, _, default, defaultRead, event, eventRead, _⟩ := read
  rw [← Nat.sub_add_cancel opens, levels_le_iff]
  constructor
  · intro value held
    rw [held] at defaultRead
    exact Decode.fits_option Decode.fits_json defaultRead
  · intro event held
    rw [held] at eventRead
    exact Decode.fits_option fits_event eventRead

end PropDefinition

namespace ComponentDefinition

variable {definition : ComponentDefinition}

def withoutNulls (definition : ComponentDefinition) : ComponentDefinition :=
  { definition with props := definition.props.mapValues PropDefinition.withoutNull }

/-- No default value holds a number of double precision. -/
def Whole (definition : ComponentDefinition) : Prop :=
  ∀ prop ∈ definition.props.values, ∀ value ∈ prop.default, value.tree.hasFloat = false

theorem without_nulls_eq_iff : definition.withoutNulls = definition ↔
    ∀ prop ∈ definition.props.values, prop.default ≠ some .null := by
  constructor
  · intro same prop member
    obtain ⟨name, held⟩ := definition.props.mem_values_iff.1 member
    have props := congrArg (fun read => read.props.get? name) same
    dsimp only [withoutNulls] at props
    rw [SortedMap.get_map_values, held, Option.map_some, Option.some_inj] at props
    exact PropDefinition.without_null_eq_iff.1 props
  · intro nonnull
    have props : definition.props.mapValues PropDefinition.withoutNull = definition.props := by
      refine SortedMap.ext_get fun name => ?_
      rw [SortedMap.get_map_values]
      cases held : definition.props.get? name with
      | none => rfl
      | some prop =>
          have kept := nonnull prop (definition.props.mem_values_iff.2 ⟨name, held⟩)
          rw [Option.map_some, PropDefinition.without_null_eq_iff.2 kept]
    rw [withoutNulls, props]

def fields (definition : ComponentDefinition) : List (String × JsonTree) :=
  [("name", .string definition.name), ("source", .string definition.source)]
    ++ PropDefinition.optionalField "exportName" (definition.exportName.map JsonTree.string)
    ++ [("props", mapTree PropDefinition.tree definition.props)]

theorem fields_distinct (definition : ComponentDefinition) :
    (definition.fields.map Prod.fst).Nodup := by
  obtain ⟨name, source, exported, props⟩ := definition
  cases exported <;> simp [fields, PropDefinition.optionalField]

theorem has_float_iff : definition.tree.hasFloat = false ↔ definition.Whole := by
  have fields : definition.tree = .object definition.fields := rfl
  have prop (prop : PropDefinition) : prop.tree.hasFloat = false ↔
      ∀ value ∈ prop.default, value.tree.hasFloat = false := by
    have fields : prop.tree = .object prop.fields := rfl
    rw [fields, JsonTree.hasFloat, JsonTree.has_float_fields_iff]
    obtain ⟨kind, default, event⟩ := prop
    cases default <;> cases event <;> simp [PropDefinition.fields, PropDefinition.optionalField,
      PropDefinition.eventTree, JsonTree.hasFloat, JsonTree.hasFloatFields]
  have props : (mapTree PropDefinition.tree definition.props).hasFloat = false ↔
      definition.Whole := by
    rw [mapTree, JsonTree.hasFloat, JsonTree.has_float_fields_iff, List.forall_mem_map, Whole,
      SortedMap.values, List.forall_mem_map]
    simp only [prop]
  rw [fields, JsonTree.hasFloat, JsonTree.has_float_fields_iff, ← props]
  obtain ⟨name, source, exported, values⟩ := definition
  cases exported <;> simp [ComponentDefinition.fields, PropDefinition.optionalField,
    JsonTree.hasFloat]

theorem picked_fields (definition : ComponentDefinition) (opens : place.levels ≠ 0) :
    Decode.record? place (.ofTree definition.tree) ["name", "source", "exportName", "props"] =
      some [some (.string (some definition.name)), some (.string (some definition.source)),
        definition.exportName.map fun name => .string (some name),
        some (.ofTree (mapTree PropDefinition.tree definition.props))] := by
  have picked := Decode.record_of_fields opens definition.fields_distinct
    ["name", "source", "exportName", "props"]
  refine picked.trans ?_
  obtain ⟨name, source, exported, props⟩ := definition
  cases exported <;> rfl

theorem levels_le_iff {limit : Nat} : definition.tree.levels ≤ limit + 1 ↔
    (mapTree PropDefinition.tree definition.props).levels ≤ limit := by
  have fields : definition.tree = .object definition.fields := rfl
  rw [fields, JsonTree.levels, Nat.add_le_add_iff_right, JsonTree.levels_of_fields_le]
  obtain ⟨name, source, exported, props⟩ := definition
  cases exported <;> simp [ComponentDefinition.fields, PropDefinition.optionalField,
    JsonTree.levels]

theorem decode_tree (fits : definition.tree.levels ≤ place.levels) :
    decode place (.ofTree definition.tree) = some definition.withoutNulls := by
  have opens : 0 < place.levels := Nat.lt_of_lt_of_le (Nat.succ_pos _) fits
  have within := fits
  rw [← Nat.sub_add_cancel opens, levels_le_iff] at within
  have exported : Decode.optional Decode.string place.inside
      (definition.exportName.map fun name => .string (some name)) = some definition.exportName := by
    cases definition.exportName with
    | none => rfl
    | some name => rfl
  have props : Decode.map PropDefinition.decode place.inside _ = _ :=
    Decode.map_changed (fun _ _ fits => PropDefinition.decode_tree fits) definition.props within
  rw [decode, definition.picked_fields (Nat.ne_of_gt opens)]
  dsimp only [bind, Option.bind, Decode.required, Decode.string, Decode.defaulted]
  rw [exported, props]
  rfl

theorem fits_definition : Fits decode tree := by
  intro place definition other read
  rw [decode, Option.bind_eq_bind, Option.bind_eq_some_iff] at read
  obtain ⟨picked, opened, read⟩ := read
  have opens := Decode.opens_of_record opened
  rw [definition.picked_fields (Nat.ne_of_gt opens)] at opened
  cases opened
  simp only [Option.bind_eq_bind, Option.bind_eq_some_iff] at read
  obtain ⟨_, _, _, _, _, _, props, propsRead, _⟩ := read
  rw [← Nat.sub_add_cancel opens, levels_le_iff]
  exact fits_map PropDefinition.fits_prop place.inside definition.props props propsRead

def ofText? (text : String) : Option ComponentDefinition :=
  Decode.readText? decode (Json.read? text)

/-- A text of a definition without floats gives all of it but its nulls, as long as it nests no
deeper than a text may. -/
theorem of_text_eq (whole : definition.Whole) {text : String}
    (printed : text = definition.tree.compact ∨ text = definition.tree.indented) :
    ofText? text =
      if definition.tree.levels ≤ nestingLimit then some definition.withoutNulls else none := by
  have floatFree := has_float_iff.2 whole
  have read : ofText? text = decode .text (.ofTree definition.tree) := by
    rcases printed with rfl | rfl
    · rw [ofText?, JsonTree.read_compact floatFree]
      rfl
    · rw [ofText?, JsonTree.read_indented floatFree]
      rfl
  rw [read]
  split
  · rename_i fits
    exact decode_tree fits
  · rename_i deep
    cases made : decode Place.text (.ofTree definition.tree) with
    | none => rfl
    | some other => exact absurd (fits_definition _ _ _ made) deep

end ComponentDefinition

end PageBuilder
