import PageBuilder.Page.Entry
import PageBuilder.Proofs.Document.Slots

/-!
Documents with other identifiers. Where different identifiers stay different, all that a document
has to say about its nodes stays the same: which of them there are, which lie below which, and in
what order. Names are no identifiers, so they stay.
-/

namespace PageBuilder

namespace Bindable

def mapIds (change : NodeId → NodeId) : Bindable → Bindable
  | .binding node prop => .binding (change node) prop
  | value => value

/-- For a text that is an identifier itself. -/
def mapText (change : NodeId → NodeId) (value : Bindable) : Bindable :=
  match value.string? with
  | some id => .constString (change id)
  | none => value

variable (change : NodeId → NodeId) (value : Bindable)

theorem string_map_ids : (value.mapIds change).string? = value.string? := by
  cases value <;> rfl

theorem string_map_text : (value.mapText change).string? = value.string?.map change := by
  rw [mapText]
  split
  · rename_i id held
    rw [held]
    rfl
  · rename_i absent
    rw [absent]
    rfl

end Bindable

namespace NodeKind

def mapIds (change : NodeId → NodeId) (kind : NodeKind) : NodeKind :=
  (kind.mapProps (SortedMap.mapValues (Bindable.mapIds change))).mapParams
    (SortedMap.mapValues (Bindable.mapIds change))

variable (change : NodeId → NodeId) (kind : NodeKind)

theorem type_map_ids : (kind.mapIds change).type = kind.type := by
  cases kind <;> rfl

theorem props_map_ids :
    (kind.mapIds change).props? =
      kind.props?.map (SortedMap.mapValues (Bindable.mapIds change)) := by
  cases kind <;> rfl

theorem params_map_ids :
    (kind.mapIds change).params? =
      kind.params?.map (SortedMap.mapValues (Bindable.mapIds change)) := by
  cases kind <;> rfl

theorem state_map_ids : (kind.mapIds change).state? = kind.state? := by
  cases kind <;> rfl

end NodeKind

def apiAttribute : String := "api"

namespace Node

def mapPlacement (change : NodeId → NodeId) (placement : Placement) : Placement :=
  { placement with parent := change placement.parent }

theorem map_placement_injective {change : NodeId → NodeId}
    (injective : Function.Injective change) : Function.Injective (mapPlacement change) := by
  intro left right same
  obtain ⟨parent, slot, index⟩ := left
  obtain ⟨upper, held, key⟩ := right
  obtain ⟨parents, slots, keys⟩ := Placement.mk.inj same
  cases injective parents
  cases slots
  cases keys
  rfl

def mapAttributes (change : NodeId → NodeId) (type : NodeType) (attributes : BindableMap) :
    BindableMap :=
  let mapped := attributes.mapValues (Bindable.mapIds change)
  if type = .queryState then
    match mapped.get? apiAttribute with
    | some api => mapped.insert apiAttribute (api.mapText change)
    | none => mapped
  else mapped

/-- A node under another identifier, with all that refers to nodes by theirs. -/
def mapIds (change : NodeId → NodeId) (node : Node) : Node where
  id := change node.id
  name := node.name
  placement := node.placement.map (mapPlacement change)
  attributes := mapAttributes change node.type node.attributes
  kind := node.kind.mapIds change

variable (change : NodeId → NodeId) (node : Node)

theorem type_map_ids : (node.mapIds change).type = node.type := node.kind.type_map_ids change

theorem parent_map_ids : (node.mapIds change).parent? = node.parent?.map change := by
  rw [parent?, mapIds, Option.map_map, parent?, Option.map_map]
  rfl

theorem get_map_attributes (type : NodeType) (attributes : BindableMap) (name : String) :
    (mapAttributes change type attributes).get? name =
      ((attributes.get? name).map (Bindable.mapIds change)).map fun value =>
        if type = .queryState ∧ name = apiAttribute then value.mapText change else value := by
  rw [← SortedMap.get_map_values, mapAttributes]
  by_cases query : type = .queryState
  · rw [if_pos query]
    simp only [query, true_and]
    cases held : (attributes.mapValues (Bindable.mapIds change)).get? apiAttribute with
    | none =>
        by_cases api : name = apiAttribute
        · rw [api, held]
          rfl
        · simp [api]
    | some value =>
        dsimp only
        by_cases api : name = apiAttribute
        · rw [api, SortedMap.get_insert_self, held]
          simp
        · rw [SortedMap.get_insert_ne _ _ api]
          simp [api]
  · rw [if_neg query]
    simp [query]

theorem attribute_text_map_ids (name : String) :
    (node.mapIds change).attributeText? name =
      if node.type = .queryState ∧ name = apiAttribute then (node.attributeText? name).map change
      else node.attributeText? name := by
  rw [attributeText?, mapIds, get_map_attributes, attributeText?]
  cases node.attributes.get? name with
  | none => simp
  | some value =>
      simp only [Option.map_some, Option.bind_some]
      split
      · rw [Bindable.string_map_text, Bindable.string_map_ids]
      · rw [Bindable.string_map_ids]

/-- Only the api of a query is told by an identifier. -/
theorem other_attribute_map_ids (name : String) (other : name ≠ apiAttribute) :
    (node.mapIds change).attributeText? name = node.attributeText? name := by
  rw [attribute_text_map_ids, if_neg fun both => other both.2]

theorem component_map_ids : (node.mapIds change).component? = node.component? := by
  have text := node.other_attribute_map_ids change "component" (by decide)
  rw [component?, component?, text, mapIds]
  cases node.kind <;> rfl

theorem index_map_ids : Document.indexOf (node.mapIds change) = Document.indexOf node := by
  rw [Document.indexOf, Document.indexOf, mapIds]
  cases node.placement <;> rfl

end Node

namespace Document

def mapIds (change : NodeId → NodeId) (document : Document) : Document where
  root := change document.root
  nodes := SortedMap.ofList
    (document.nodes.entries.map fun entry => (change entry.1, entry.2.mapIds change))
  names := document.names.mapValues change

section Equal

variable {change : NodeId → NodeId} (injective : Function.Injective change) {document : Document}

include injective

theorem get_map_ids_iff {id : NodeId} {node : Node} :
    (document.mapIds change).get? id = some node ↔
      ∃ old former, document.get? old = some former ∧ change old = id ∧
        former.mapIds change = node := by
  rw [get?, mapIds, SortedMap.get_of_list_iff]
  · rw [List.mem_map]
    constructor
    · rintro ⟨⟨old, former⟩, listed, same⟩
      obtain ⟨rfl, rfl⟩ := Prod.mk.inj same
      exact ⟨old, former, document.nodes.mem_entries_iff.1 listed, rfl, rfl⟩
    · rintro ⟨old, former, found, rfl, rfl⟩
      exact ⟨(old, former), document.nodes.mem_entries_iff.2 found, rfl⟩
  · intro name left right first second
    obtain ⟨⟨old, former⟩, listed, same⟩ := List.mem_map.1 first
    obtain ⟨⟨other, later⟩, inside, again⟩ := List.mem_map.1 second
    obtain ⟨rfl, rfl⟩ := Prod.mk.inj same
    obtain ⟨equal, rfl⟩ := Prod.mk.inj again
    cases injective equal
    have found := document.nodes.mem_entries_iff.1 listed
    rw [document.nodes.mem_entries_iff.1 inside] at found
    cases found
    rfl

theorem get_map_ids (id : NodeId) :
    (document.mapIds change).get? (change id) = (document.get? id).map (Node.mapIds change) := by
  apply Option.ext
  intro node
  rw [get_map_ids_iff injective, Option.map_eq_some_iff]
  constructor
  · rintro ⟨old, former, found, same, rfl⟩
    cases injective same
    exact ⟨former, found, rfl⟩
  · rintro ⟨former, found, rfl⟩
    exact ⟨id, former, found, rfl, rfl⟩

theorem present_map_ids {id : NodeId} {node : Node} (here : document.get? id = some node) :
    (document.mapIds change).get? (change id) = some (node.mapIds change) := by
  rw [get_map_ids injective, here]
  rfl

theorem mem_all_nodes_map_ids {node : Node} :
    node ∈ (document.mapIds change).allNodes ↔
      ∃ former ∈ document.allNodes, former.mapIds change = node := by
  simp only [mem_all_nodes, get_map_ids_iff injective]
  constructor
  · rintro ⟨_, old, former, found, _, same⟩
    exact ⟨former, ⟨old, found⟩, same⟩
  · rintro ⟨former, ⟨old, found⟩, same⟩
    exact ⟨change old, old, former, found, rfl, same⟩

theorem parent_id_map_ids (id : NodeId) :
    (document.mapIds change).parentId? (change id) = (document.parentId? id).map change := by
  rw [parentId?, parentId?, get_map_ids injective, Option.bind_map, Option.map_bind]
  congr 1
  funext node
  exact node.parent_map_ids change

theorem Under.map_ids {upper lower : NodeId} {distance : Nat}
    (under : Under document upper distance lower) :
    Under (document.mapIds change) (change upper) distance (change lower) := by
  induction under with
  | self => exact .self
  | up step _ ih =>
      refine .up ?_ ih
      rw [parent_id_map_ids injective, step]
      rfl

theorem stands_in_map_ids {parent : NodeId} {slot : String} {node : Node} :
    standsIn (change parent) slot (node.mapIds change) = standsIn parent slot node := by
  rw [standsIn, standsIn, Node.mapIds]
  cases node.placement with
  | none => rfl
  | some placement =>
      dsimp only [Option.map_some, Node.mapPlacement]
      simp only [injective.eq_iff]

theorem WellFormed.map_ids (wellFormed : document.WellFormed) :
    (document.mapIds change).WellFormed where
  root := by
    obtain ⟨root, here, type, unplaced⟩ := wellFormed.root
    refine ⟨root.mapIds change, present_map_ids injective here,
      (root.type_map_ids change).trans type, ?_⟩
    rw [Node.mapIds, unplaced]
    rfl
  stored := by
    intro id node here
    obtain ⟨old, former, found, rfl, rfl⟩ := (get_map_ids_iff injective).1 here
    exact congrArg change (wellFormed.stored found)
  named := by
    intro left right first second one other same
    obtain ⟨old, former, here, rfl, rfl⟩ := (get_map_ids_iff injective).1 one
    obtain ⟨older, later, there, rfl, rfl⟩ := (get_map_ids_iff injective).1 other
    exact congrArg change (wellFormed.named here there same)
  unplaced := by
    intro id node here unplaced
    obtain ⟨old, former, found, rfl, rfl⟩ := (get_map_ids_iff injective).1 here
    exact congrArg change (wellFormed.unplaced found (Option.map_eq_none_iff.1 unplaced))
  fits := by
    intro id node placement here placed
    obtain ⟨old, former, found, rfl, rfl⟩ := (get_map_ids_iff injective).1 here
    obtain ⟨place, there, rfl⟩ := Option.map_eq_some_iff.1 placed
    obtain ⟨parent, above, fits⟩ := wellFormed.fits found there
    refine ⟨parent.mapIds change, present_map_ids injective above, ?_⟩
    rw [Node.type_map_ids, Node.type_map_ids]
    exact fits
  keyed := by
    intro id node placement here placed
    obtain ⟨old, former, found, rfl, rfl⟩ := (get_map_ids_iff injective).1 here
    obtain ⟨place, there, rfl⟩ := Option.map_eq_some_iff.1 placed
    have keyed : OrderKey.check place.index = .ok () := wellFormed.keyed found there
    exact keyed
  apart := by
    intro left right first second placement one other placed again
    obtain ⟨old, former, here, rfl, rfl⟩ := (get_map_ids_iff injective).1 one
    obtain ⟨older, later, there, rfl, rfl⟩ := (get_map_ids_iff injective).1 other
    obtain ⟨place, stands, rfl⟩ := Option.map_eq_some_iff.1 placed
    obtain ⟨next, standing, same⟩ := Option.map_eq_some_iff.1 again
    cases Node.map_placement_injective injective same
    exact congrArg change (wellFormed.apart here there stands standing)
  reaches := by
    intro id node here
    obtain ⟨old, former, found, rfl, rfl⟩ := (get_map_ids_iff injective).1 here
    obtain ⟨distance, under⟩ := wellFormed.reaches found
    exact ⟨distance, under.map_ids injective⟩

theorem Indexed.map_ids (indexed : document.Indexed) : (document.mapIds change).Indexed := by
  intro name id
  rw [mapIds, SortedMap.get_map_values, Option.map_eq_some_iff]
  constructor
  · rintro ⟨old, listed, rfl⟩
    obtain ⟨node, here, named⟩ := (indexed name old).1 listed
    exact ⟨node.mapIds change, present_map_ids injective here, named⟩
  · rintro ⟨node, here, named⟩
    obtain ⟨old, former, found, rfl, rfl⟩ := (get_map_ids_iff injective).1 here
    exact ⟨old, (indexed name old).2 ⟨former, found, named⟩, rfl⟩

theorem Valid.map_ids (valid : document.Valid) : (document.mapIds change).Valid :=
  ⟨valid.toWellFormed.map_ids injective, Indexed.map_ids injective valid.indexed⟩

theorem children_in_map_ids (valid : document.Valid) (parent : NodeId) (slot : String) :
    (document.mapIds change).childrenIn (change parent) slot =
      (document.childrenIn parent slot).map (Node.mapIds change) := by
  apply children_in_eq (valid.map_ids injective).toWellFormed
  · apply List.pairwise_map.2
    refine (children_in_ahead valid.toWellFormed parent slot).imp fun {left right} ahead => ?_
    rw [Ahead, Node.index_map_ids, Node.index_map_ids]
    exact ahead
  · intro node
    rw [List.mem_map, mem_all_nodes_map_ids injective]
    constructor
    · rintro ⟨former, listed, rfl⟩
      obtain ⟨inside, stands⟩ := mem_children_in.1 listed
      exact ⟨⟨former, inside, rfl⟩, by rw [stands_in_map_ids injective, stands]⟩
    · rintro ⟨⟨former, inside, rfl⟩, stands⟩
      rw [stands_in_map_ids injective] at stands
      exact ⟨former, mem_children_in.2 ⟨inside, stands⟩, rfl⟩

theorem slots_of_map_ids (parent : NodeId) :
    (document.mapIds change).slotsOf (change parent) = document.slotsOf parent := by
  apply SortedMap.keys_eq_of_mem
  intro slot
  change slot ∈ (document.mapIds change).slotsOf (change parent) ↔ slot ∈ document.slotsOf parent
  rw [mem_slots_of, mem_slots_of]
  simp only [mem_all_nodes_map_ids injective]
  constructor
  · rintro ⟨_, ⟨former, inside, rfl⟩, stands⟩
    exact ⟨former, inside, by rw [← stands, stands_in_map_ids injective]⟩
  · rintro ⟨former, inside, stands⟩
    exact ⟨_, ⟨former, inside, rfl⟩, by rw [stands_in_map_ids injective, stands]⟩

theorem child_slots_map_ids (valid : document.Valid) (parent : NodeId) :
    (document.mapIds change).childSlots (change parent) =
      (document.childSlots parent).map fun slot => (slot.1, slot.2.map (Node.mapIds change)) := by
  rw [childSlots, childSlots, slots_of_map_ids injective, List.map_map]
  apply List.map_congr_left
  intro slot _
  rw [children_in_map_ids injective valid]
  rfl

theorem children_map_ids (valid : document.Valid) (parent : NodeId) :
    (document.mapIds change).children (change parent) =
      (document.children parent).map (Node.mapIds change) := by
  rw [children, children, child_slots_map_ids injective valid, List.flatMap_map, List.map_flatMap]

theorem all_nodes_map_ids (valid : document.Valid) :
    (document.mapIds change).allNodes.Perm (document.allNodes.map (Node.mapIds change)) := by
  apply (List.perm_ext_iff_of_nodup (all_nodes_nodup (valid.map_ids injective).stored) _).2
  · intro node
    rw [mem_all_nodes_map_ids injective, List.mem_map]
  · refine (all_nodes_nodup valid.stored).map_on fun left first right second same => ?_
    have ids : change left.id = change right.id := congrArg Node.id same
    exact eq_of_same_id ((mem_all_nodes_iff valid.stored).1 first)
      ((mem_all_nodes_iff valid.stored).1 second) (injective ids)

theorem size_map_ids (valid : document.Valid) : (document.mapIds change).size = document.size := by
  have length := (all_nodes_map_ids injective valid).length_eq
  rw [List.length_map, allNodes, allNodes, SortedMap.values, SortedMap.values, List.length_map,
    List.length_map] at length
  exact length

theorem below_map_ids (valid : document.Valid) (depth : Nat) (parent : NodeId) :
    (document.mapIds change).below depth (change parent) =
      (document.below depth parent).map (Node.mapIds change) := by
  induction depth generalizing parent with
  | zero => rfl
  | succ depth ih =>
      rw [below, below, children_map_ids injective valid, List.flatMap_map, List.map_flatMap]
      apply List.flatMap_congr
      intro child _
      rw [List.map_cons, ← ih]
      rfl

theorem elements_below_map_ids (valid : document.Valid) (depth : Nat) (nodes : List Node) :
    (document.mapIds change).elementsBelow depth (nodes.map (Node.mapIds change)) =
      (document.elementsBelow depth nodes).map (Node.mapIds change) := by
  induction depth generalizing nodes with
  | zero => rfl
  | succ depth ih =>
      have kept : (nodes.map (Node.mapIds change)).filter (fun node => node.type = .element) =
          (nodes.filter fun node => node.type = .element).map (Node.mapIds change) := by
        rw [List.filter_map]
        congr 1
        apply List.filter_congr
        intro node _
        rw [Function.comp_apply, Node.type_map_ids]
      rw [elementsBelow, elementsBelow, kept, List.flatMap_map, List.map_flatMap]
      apply List.flatMap_congr
      intro element _
      rw [List.map_cons, ← ih, ← children_map_ids injective valid]
      rfl

theorem markup_elements_map_ids (valid : document.Valid) (page : NodeId) :
    (document.mapIds change).markupElements (change page) =
      (document.markupElements page).map (Node.mapIds change) := by
  rw [markupElements, markupElements, size_map_ids injective valid,
    children_in_map_ids injective valid, elements_below_map_ids injective valid]

theorem nodes_inside_map_ids (valid : document.Valid) (page : Node) :
    PageView.nodesInside (document.mapIds change) (page.mapIds change) =
      (PageView.nodesInside document page).map change := by
  rw [PageView.nodesInside, PageView.nodesInside, descendants, descendants,
    size_map_ids injective valid, List.map_cons, List.map_map]
  change change page.id :: ((document.mapIds change).below _ (change page.id)).map _ = _
  rw [below_map_ids injective valid, List.map_map]
  rfl

theorem node_named_map_ids (name : String) :
    (document.mapIds change).nodeNamed? name =
      (document.nodeNamed? name).map (Node.mapIds change) := by
  rw [nodeNamed?, nodeNamed?, mapIds, SortedMap.get_map_values, Option.bind_map, Option.map_bind]
  congr 1
  funext id
  exact get_map_ids injective id

end Equal

end Document

end PageBuilder
