import PageBuilder.Proofs.Document.Codec
import PageBuilder.Proofs.Node.Nesting

/-!
How deep edits and documents nest. An edit names the value that it sets at its top, while a document
has its nodes, and these what they hold, around it: a value lies deeper in a document than in the
edit that put it there.
-/

namespace PageBuilder

variable {place : Place}

namespace Action

def held : Action → JsonTree
  | .addNode node _ _ _ => node.tree
  | .setValue _ _ _ value => optionalValue value
  | .setPageState _ _ value => value.tree
  | _ => .null

theorem levels_eq (action : Action) : action.tree.levels = action.held.levels + 1 := by
  have text (index : Option String) : (optionalText index).levels = 0 := by
    cases index <;> rfl
  cases action <;>
    simp [tree, fields, held, text, JsonTree.levels, JsonTree.levelsOfFields]

variable {body : Decode.Body} {action : Action}

theorem held_levels_of_add (read : decodeAdd place body = some action) :
    action.held.levels ≤ max 2 place.levels := by
  rw [decodeAdd, Option.bind_eq_bind, Option.bind_eq_some_iff] at read
  obtain ⟨picked, -, read⟩ := read
  split at read
  · rename_i node parent slot index
    simp only [Option.bind_eq_bind, Option.bind_eq_some_iff] at read
    obtain ⟨made, taken, _, _, _, _, _, _, same⟩ := read
    cases same
    cases node with
    | none => cases taken
    | some written => exact Node.levels_of_decoded taken
  · cases read

theorem held_levels_of_value (read : decodeValue place body = some action) :
    action.held.levels ≤ place.levels := by
  rw [decodeValue, Option.bind_eq_bind, Option.bind_eq_some_iff] at read
  obtain ⟨picked, -, read⟩ := read
  split at read
  · simp only [Option.bind_eq_bind, Option.bind_eq_some_iff] at read
    obtain ⟨_, _, _, _, _, _, value, taken, same⟩ := read
    cases same
    cases value with
    | none => exact Nat.zero_le _
    | some value =>
        obtain ⟨written, made⟩ := Decode.some_of_optional taken
        exact Bindable.bounded_bindable _ _ _ made
  · cases read

theorem held_levels_of_state (read : decodePageState place body = some action) :
    action.held.levels ≤ place.levels := by
  rw [decodePageState, Option.bind_eq_bind, Option.bind_eq_some_iff] at read
  obtain ⟨picked, -, read⟩ := read
  split at read
  · rename_i page slot value
    simp only [Option.bind_eq_bind, Option.bind_eq_some_iff] at read
    obtain ⟨_, _, _, _, made, taken, same⟩ := read
    cases same
    cases value with
    | none => cases taken
    | some written => exact Decode.bounded_json _ _ _ taken
  · cases read

theorem held_of_move (read : decodeMove place body = some action) : action.held = .null := by
  rw [decodeMove, Option.bind_eq_bind, Option.bind_eq_some_iff] at read
  obtain ⟨picked, -, read⟩ := read
  split at read
  · simp only [Option.bind_eq_bind, Option.bind_eq_some_iff] at read
    obtain ⟨_, _, _, _, _, _, _, _, same⟩ := read
    cases same
    rfl
  · cases read

theorem held_of_remove (read : decodeRemove place body = some action) :
    action.held = .null := by
  rw [decodeRemove, Option.bind_eq_bind, Option.bind_eq_some_iff] at read
  obtain ⟨picked, -, read⟩ := read
  split at read
  · rw [Option.bind_eq_bind, Option.bind_eq_some_iff] at read
    obtain ⟨_, _, same⟩ := read
    cases same
    rfl
  · cases read

theorem held_of_name (read : decodeName place body = some action) : action.held = .null := by
  rw [decodeName, Option.bind_eq_bind, Option.bind_eq_some_iff] at read
  obtain ⟨picked, -, read⟩ := read
  split at read
  · simp only [Option.bind_eq_bind, Option.bind_eq_some_iff] at read
    obtain ⟨_, _, _, _, same⟩ := read
    cases same
    rfl
  · cases read

theorem held_of_remove_state (read : decodeRemoveState place body = some action) :
    action.held = .null := by
  rw [decodeRemoveState, Option.bind_eq_bind, Option.bind_eq_some_iff] at read
  obtain ⟨picked, -, read⟩ := read
  split at read
  · simp only [Option.bind_eq_bind, Option.bind_eq_some_iff] at read
    obtain ⟨_, _, _, _, same⟩ := read
    cases same
    rfl
  · cases read

/-- An edit is taken at three levels at least, if it adds a node that holds no values. -/
theorem levels_of_decoded {written : Written} (read : decode place written = some action) :
    action.tree.levels ≤ max 3 place.levels := by
  rw [decode, Option.bind_eq_bind, Option.bind_eq_some_iff] at read
  obtain ⟨⟨number, body⟩, tagged, read⟩ := read
  have opens : 0 < place.levels := Decode.opens_of_tagged tagged
  have inner : max 3 place.levels = max 2 place.tagged.levels + 1 := by
    rw [show place.tagged.levels = place.levels - 1 from rfl]
    omega
  have wider : place.tagged.levels ≤ max 2 place.tagged.levels := Nat.le_max_right _ _
  rw [levels_eq, inner, Nat.add_le_add_iff_right]
  clear tagged
  dsimp only at read
  split at read
  · exact held_levels_of_add read
  · exact held_of_move read ▸ Nat.zero_le _
  · exact held_of_remove read ▸ Nat.zero_le _
  · exact held_of_name read ▸ Nat.zero_le _
  · exact Nat.le_trans (held_levels_of_value read) wider
  · exact Nat.le_trans (held_levels_of_state read) wider
  · exact held_of_remove_state read ▸ Nat.zero_le _

end Action

namespace Document

variable {document : Document} {limit : Nat}

def NestsWithin (document : Document) (limit : Nat) : Prop :=
  ∀ id node, document.get? id = some node → node.tree.levels ≤ limit

theorem levels_eq (document : Document) :
    document.tree.levels = (Decode.mapTree Node.tree document.nodes).levels + 1 := by
  simp [tree, Decode.mapTree, JsonTree.levels, JsonTree.levelsOfFields]

/-- A document has two levels around its nodes. -/
theorem levels_le_iff : document.tree.levels ≤ limit + 2 ↔ document.NestsWithin limit := by
  rw [levels_eq, Nat.add_le_add_iff_right]
  exact Decode.levels_of_map_le

theorem fits_parts {parts : NodeId × SortedMap Node}
    (read : decodeParts place (.ofTree document.tree) = some parts) :
    document.tree.levels ≤ place.levels := by
  rw [decodeParts, Option.bind_eq_bind, Option.bind_eq_some_iff] at read
  obtain ⟨picked, found, read⟩ := read
  have opens := Decode.opens_of_record found
  rw [tree, Decode.record_of_fields (Nat.ne_of_gt opens) (by simp)] at found
  cases found
  obtain ⟨root, _, read⟩ := Option.bind_eq_some_iff.1 read
  obtain ⟨nodes, taken, _⟩ := Option.bind_eq_some_iff.1 read
  have inner : (Decode.mapTree Node.tree document.nodes).levels ≤ place.levels - 1 :=
    Decode.fits_map Node.fits_node place.inside document.nodes nodes taken
  rw [levels_eq]
  omega

theorem nests_within_of_root (root : NodeId) : (ofRoot root).NestsWithin 2 := by
  intro id node found
  rw [get?, ofRoot, SortedMap.get_insert] at found
  split at found
  · cases found
    exact Nat.le_refl 2
  · cases found

theorem NestsWithin.put {node : Node} {names : SortedMap NodeId}
    (within : document.NestsWithin limit) (own : node.tree.levels ≤ limit) :
    (document.put node names).NestsWithin limit := by
  intro id other found
  rcases get_put_cases found with ⟨_, rfl⟩ | ⟨_, there⟩
  · exact own
  · exact within id other there

theorem NestsWithin.remove {id : NodeId} {next : Document} (within : document.NestsWithin limit)
    (removed : document.remove id = .ok next) : next.NestsWithin limit := by
  obtain ⟨node, placement, _, _, rfl⟩ := remove_ok removed
  intro lower other found
  rw [get?, SortedMap.get_foldl_erase] at found
  split at found
  · cases found
  · exact within lower other found

/-- No edit nests a node deeper than it was, or than one level more than the edit has. -/
theorem NestsWithin.apply {action : Action} {next : Document}
    (within : document.NestsWithin limit) (shallow : action.tree.levels < limit)
    (applied : action.apply document = .ok next) : next.NestsWithin limit := by
  rw [action.levels_eq] at shallow
  cases action with
  | addNode node parent slot index =>
      obtain ⟨_, _, _, key, name, _, _, rfl⟩ := add_ok applied
      have own : node.tree.levels ≤ limit := Nat.le_of_lt (Nat.lt_of_succ_lt shallow)
      exact within.put (Node.levels_of_same own rfl rfl)
  | moveNode id parent slot index =>
      obtain ⟨node, above, key, here, _, _, _, _, _, rfl⟩ := move_ok applied
      exact within.put (Node.levels_of_same (within id node here) rfl rfl)
  | removeNode id => exact within.remove applied
  | setNodeName id name =>
      obtain ⟨node, here, ⟨_, rfl⟩ | rfl⟩ := rename_ok applied
      · exact within
      · exact within.put (Node.levels_of_same (within id node here) rfl rfl)
  | setValue id space name value =>
      obtain ⟨node, here, rfl⟩ := set_value_eq applied
      apply within.put
      apply Node.levels_of_map_values (within id node here)
      intro values inner
      cases value with
      | none => exact Decode.levels_of_erase inner
      | some value => exact Decode.levels_of_insert inner shallow
  | setPageState page slot value =>
      obtain ⟨node, here, rfl⟩ := set_page_state_eq applied
      apply within.put
      apply Node.levels_of_map_state (within page node here)
      intro state inner
      exact Decode.levels_of_insert inner shallow
  | removePageState page slot =>
      obtain ⟨node, here, rfl⟩ := remove_page_state_eq applied
      apply within.put
      apply Node.levels_of_map_state (within page node here)
      intro state inner
      exact Decode.levels_of_erase inner

end Document

end PageBuilder
