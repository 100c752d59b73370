import PageBuilder.Action
import PageBuilder.Document.Codec
import PageBuilder.Proofs.Document.Run
import PageBuilder.Proofs.Json.Reader
import PageBuilder.Proofs.Node.Codec

/-!
Documents and edits are read back from their written forms. A document is checked again when it is
read, and the names that are read off its nodes are those it had.
-/

namespace PageBuilder

open Decode (Inverts fits_inside inverts_json inverts_map inverts_option inverts_string pick_eq
  writtenFields)

variable {place : Place}

namespace Document

variable {document : Document}

theorem WellFormed.with_names (wellFormed : document.WellFormed) (names : SortedMap NodeId) :
    WellFormed ⟨document.root, document.nodes, names⟩ where
  root := wellFormed.root
  stored := wellFormed.stored
  named := wellFormed.named
  unplaced := wellFormed.unplaced
  fits := wellFormed.fits
  keyed := wellFormed.keyed
  apart := wellFormed.apart
  reaches := by
    intro id node found
    obtain ⟨distance, under⟩ := wellFormed.reaches found
    refine ⟨distance, ?_⟩
    clear found
    induction under with
    | self => exact .self
    | up step _ ih => exact .up step ih

theorem of_nodes_same (valid : document.Valid) :
    ofNodes document.root document.nodes = .ok document := by
  let names := SortedMap.ofList
    (document.nodes.values.map fun node => (node.name, node.id))
  have wellFormed := valid.toWellFormed.with_names names
  have indexed := indexed_of_list wellFormed
  have same : names = document.names := by
    refine SortedMap.ext_get fun name => Option.ext fun id => ?_
    exact (indexed name id).trans (valid.indexed name id).symm
  have passed : violations ⟨document.root, document.nodes, names⟩ = [] :=
    violations_nil_iff.2 wellFormed
  rw [same] at passed
  rw [ofNodes]
  simp only [names] at same
  simp only [same, passed]

theorem decode_parts_eq (fits : document.tree.levels ≤ place.levels) :
    decodeParts place (.ofTree document.tree) = some (document.root, document.nodes) := by
  have fields : document.tree = .object [("root", .string document.root),
      ("nodes", Decode.mapTree Node.tree document.nodes)] := rfl
  rw [fields] at fits ⊢
  have nodes := inverts_map Node.inverts_node place.inside document.nodes
    (fits_inside fits (List.mem_cons_of_mem _ List.mem_cons_self))
  have picked : Decode.record? place (.ofTree (.object [("root", .string document.root),
      ("nodes", Decode.mapTree Node.tree document.nodes)])) ["root", "nodes"] =
        some [some (.string (some document.root)),
          some (.ofTree (Decode.mapTree Node.tree document.nodes))] :=
    Decode.record_of_tree fits (by simp) ["root", "nodes"]
  rw [decodeParts, picked]
  dsimp only [bind, Option.bind, Decode.required, Decode.string]
  rw [nodes]

theorem of_text_of_document (valid : document.Valid) (whole : document.tree.hasFloat = false)
    (shallow : document.tree.levels ≤ nestingLimit) : ofText document.text = .ok document := by
  have read : Decode.readText? decodeParts (Json.read? document.text) =
      some (document.root, document.nodes) := by
    have fits : document.tree.levels ≤ Place.text.levels := shallow
    rw [text, JsonTree.read_indented whole, Decode.readText?]
    exact decode_parts_eq fits
  rw [ofText, read, ofParts, of_nodes_same valid]

end Document

namespace Action

theorem fields_distinct (action : Action) :
    (((Decode.tagName, JsonTree.string action.caseName) :: action.fields).map Prod.fst).Nodup := by
  cases action <;> simp [fields, Decode.tagName]

theorem optional_text_eq (place : Place) (text : Option String) :
    Decode.optional Decode.string place (some (.ofTree (optionalText text))) = some text := by
  cases text <;> rfl

theorem inverts_optional_value :
    Inverts (Decode.option Bindable.decode) optionalValue := by
  have inverts := inverts_option Bindable.inverts_bindable (fun value null => by
    rw [Bindable.tree] at null
    cases null)
  intro place value fits
  cases value with
  | none => rfl
  | some value => exact inverts place (some value) fits

theorem picked_fields (action : Action) {names : List String} {found : List (Option Written)}
    (listed : (names.map fun name => (action.fields.lookup name).map .ofTree) = found) :
    (Decode.Body.named (writtenFields action.fields)).pick? names = some found := by
  rw [pick_eq (List.nodup_cons.1 action.fields_distinct).2, listed]

theorem decode_add_eq {node : Node} (parent : NodeId) (slot : String) (index : Option String)
    (read : Node.decode place (.ofTree node.tree) = some node) :
    decodeAdd place (.named (writtenFields (fields (.addNode node parent slot index)))) =
      some (.addNode node parent slot index) := by
  have picked := picked_fields (.addNode node parent slot index)
    (rfl : (["node", "parentId", "parentProp", "parentIndex"].map _) =
      [some (.ofTree node.tree), some (.string (some parent)), some (.string (some slot)),
        some (.ofTree (optionalText index))])
  rw [decodeAdd, picked]
  dsimp only [bind, Option.bind, Decode.required, Decode.string]
  rw [read, optional_text_eq]

theorem decode_value_eq (id : NodeId) (space : Namespace) (name : String)
    {value : Option Bindable}
    (read : Decode.option Bindable.decode place (.ofTree (optionalValue value)) = some value) :
    decodeValue place (.named (writtenFields (fields (.setValue id space name value)))) =
      some (.setValue id space name value) := by
  have picked := picked_fields (.setValue id space name value)
    (rfl : (["nodeId", "namespace", "prop", "value"].map _) =
      [some (.string (some id)), some (.string (some space.name)), some (.string (some name)),
        some (.ofTree (optionalValue value))])
  have spaces : Namespace.decode place (.string (some space.name)) = some space :=
    Namespace.inverts_namespace place space (Nat.zero_le _)
  rw [decodeValue, picked]
  dsimp only [bind, Option.bind, Decode.required, Decode.optional, Decode.defaulted, Decode.string]
  rw [spaces, read]

theorem decode_page_state_eq (page : NodeId) (slot : String) {value : Json}
    (read : Decode.json place (.ofTree value.tree) = some value) :
    decodePageState place (.named (writtenFields (fields (.setPageState page slot value)))) =
      some (.setPageState page slot value) := by
  have picked := picked_fields (.setPageState page slot value)
    (rfl : (["pageId", "slot", "defaultValue"].map _) =
      [some (.string (some page)), some (.string (some slot)), some (.ofTree value.tree)])
  rw [decodePageState, picked]
  dsimp only [bind, Option.bind, Decode.required, Decode.string]
  rw [read]

theorem inverts_action : Inverts decode tree := by
  intro place action fits
  have tagged (number : Nat) (listed : caseNames.idxOf? action.caseName = some number) :
      Decode.tagged? caseNames place (.ofTree action.tree) =
        some (number, .named (writtenFields action.fields)) :=
    Decode.tagged_of_tree fits action.fields_distinct listed
  have inner {field : String × JsonTree} (member : field ∈ action.fields) :
      field.2.levels ≤ place.tagged.levels :=
    fits_inside fits (List.mem_cons_of_mem _ member)
  cases action with
  | addNode node parent slot index =>
      rw [decode, tagged 0 rfl]
      exact decode_add_eq parent slot index
        (Node.inverts_node place.tagged node (inner List.mem_cons_self))
  | moveNode id parent slot index =>
      rw [decode, tagged 1 rfl]
      dsimp only [bind, Option.bind]
      rw [decodeMove, picked_fields _ rfl]
      cases index <;> rfl
  | removeNode id =>
      rw [decode, tagged 2 rfl]
      dsimp only [bind, Option.bind]
      rw [decodeRemove, picked_fields _ rfl]
      rfl
  | setNodeName id name =>
      rw [decode, tagged 3 rfl]
      dsimp only [bind, Option.bind]
      rw [decodeName, picked_fields _ rfl]
      rfl
  | setValue id space name value =>
      have member : ("value", optionalValue value) ∈ fields (.setValue id space name value) := by
        simp [fields]
      rw [decode, tagged 4 rfl]
      exact decode_value_eq id space name
        (inverts_optional_value place.tagged value (inner member))
  | setPageState page slot value =>
      have member : ("defaultValue", value.tree) ∈ fields (.setPageState page slot value) := by
        simp [fields]
      rw [decode, tagged 5 rfl]
      exact decode_page_state_eq page slot (inverts_json place.tagged value (inner member))
  | removePageState page slot =>
      rw [decode, tagged 6 rfl]
      dsimp only [bind, Option.bind]
      rw [decodeRemoveState, picked_fields _ rfl]
      rfl

theorem read_back (action : Action) (whole : action.tree.hasFloat = false)
    (shallow : action.tree.levels ≤ nestingLimit) :
    Decode.readText? decode (Json.read? action.tree.compact) = some action ∧
      Decode.readText? decode (Json.read? action.tree.indented) = some action := by
  rw [JsonTree.read_compact whole, JsonTree.read_indented whole]
  exact ⟨inverts_action Place.text action shallow, inverts_action Place.text action shallow⟩

end Action

/-- What is written is read back: a valid document from its text, and an edit from its encoding, as
long as there is no float in it and nothing nests deeper than a reader goes. -/
theorem written_forms_read_back :
    (∀ document : Document, document.Valid → document.tree.hasFloat = false →
      document.tree.levels ≤ nestingLimit → Document.ofText document.text = .ok document) ∧
    ∀ action : Action, action.tree.hasFloat = false → action.tree.levels ≤ nestingLimit →
      Decode.readText? Action.decode (Json.read? action.tree.compact) = some action ∧
        Decode.readText? Action.decode (Json.read? action.tree.indented) = some action :=
  ⟨fun _ valid whole shallow => Document.of_text_of_document valid whole shallow,
    fun action whole shallow => action.read_back whole shallow⟩

def sampleValue : Json :=
  .array [.string "\"a\\\n\x01é", .number (.int (-12) (by decide)), .array [], .bool true, .null]

/-- A page with state and an element with a prop of each kind. -/
def sampleWriting : List Action :=
  [.addNode ⟨"p", "home", none, .empty, .page .empty⟩ "r" "pages" (some "V"),
    .setPageState "p" "list" sampleValue,
    .addNode ⟨"e", "text", none, .empty, .element .empty⟩ "p" "children" (some "V"),
    .setValue "e" .attributes "component" (some (.constString "Text")),
    .setValue "e" .props "a" (some (.binding "p" "list")),
    .setValue "e" .props "b" (some (.bound "\x7b\x7bhome.list\x7d\x7d" (some .expression))),
    .setValue "e" .props "c" (some (.script "1 + 1")),
    .setValue "e" .props "d" (some (.secret "key"))]

theorem written_forms_read_back_sample :
    let document := (Document.ofRoot "r").run sampleWriting
    document.Valid ∧ document.size = 3 ∧ Document.ofText document.text = .ok document ∧
      ∀ action ∈ sampleWriting,
        Decode.readText? Action.decode (Json.read? action.tree.compact) = some action := by
  intro document
  have valid : document.Valid := Document.valid_run (Document.valid_of_root "r") _
  have whole : document.tree.hasFloat = false := by decide +kernel
  have shallow : document.tree.levels ≤ nestingLimit := by decide +kernel
  refine ⟨valid, by decide +kernel, written_forms_read_back.1 document valid whole shallow, ?_⟩
  intro action member
  have each : ∀ action ∈ sampleWriting,
      action.tree.hasFloat = false ∧ action.tree.levels ≤ nestingLimit := by
    decide +kernel
  obtain ⟨whole, shallow⟩ := each action member
  exact (written_forms_read_back.2 action whole shallow).1

end PageBuilder
