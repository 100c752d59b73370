import PageBuilder.Proofs.Document.Queries
import PageBuilder.Proofs.Page.Props
import PageBuilder.Proofs.ReadGraph.Built

/-!
What a page lists, it lists once: the elements that it shows, its state, and the values of its
props. Nothing lies below two siblings, so no element is met twice on the way down.
-/

namespace PageBuilder

theorem SortedMap.entries_nodup {Value : Type} (map : SortedMap Value) : map.entries.Nodup :=
  map.keys_nodup.of_map

namespace Document

variable {document : Document} {page : Node} {schema : PropSchema}

theorem Nested.under_upper (stored : document.Stored) {upper : NodeId} {tops : List Node}
    {level : Nat} {element : Node} (inside : tops ⊆ document.children upper)
    (nested : Nested document tops level element) :
    Under document upper (1 + level) element.id := by
  obtain ⟨top, member, under⟩ := nested.under stored
  exact under.trans (.single ((mem_children_iff stored).1 (inside member)).2)

theorem elements_below_nodup (valid : document.Valid) (depth : Nat) {upper : NodeId}
    {nodes : List Node} (found : ∃ node, document.get? upper = some node)
    (inside : nodes ⊆ document.children upper) (once : nodes.Nodup) :
    (document.elementsBelow depth nodes).Nodup := by
  induction depth generalizing upper nodes with
  | zero => exact List.nodup_nil
  | succ depth ih =>
      have held {top : Node} (member : top ∈ nodes.filter fun node => node.type = .element) :=
        (mem_children_iff valid.stored).1 (inside (List.mem_of_mem_filter member))
      have below {top element : Node}
          (member : element ∈ top :: document.elementsBelow depth (document.children top.id)) :
          ∃ distance, Under document top.id distance element.id := by
        rcases List.mem_cons.1 member with rfl | later
        · exact ⟨0, .self⟩
        · obtain ⟨level, _, nested⟩ := mem_elements_below_iff.1 later
          exact ⟨_, nested.under_upper valid.stored (List.Subset.refl _)⟩
      rw [elementsBelow]
      apply nodup_of_parts (once.filter _)
      · intro top member
        have present : ∃ node, document.get? top.id = some node := ⟨top, (held member).1⟩
        refine List.nodup_cons.2 ⟨?_, ih present (List.Subset.refl _)
          (children_nodup valid.stored top.id)⟩
        intro again
        obtain ⟨level, _, nested⟩ := mem_elements_below_iff.1 again
        have under := nested.under_upper valid.stored (List.Subset.refl _)
        rw [Nat.add_comm] at under
        exact valid.rooted.not_under_self present under
      · intro left first right second element here there
        obtain ⟨near, under⟩ := below here
        obtain ⟨far, other⟩ := below there
        apply eq_of_same_id (held first).1 (held second).1
        exact valid.rooted.eq_of_siblings found (held first).2 (held second).2 under other

theorem HoldsPage.markup_nodup (holds : document.HoldsPage page) :
    (document.markupElements page.id).Nodup :=
  elements_below_nodup holds.valid _ ⟨page, holds.found⟩ (children_in_subset document _ _)
    (children_in_nodup holds.stored _ _)

theorem page_slots_nodup (page : Node) : ((PageView.pageSlots page).map Prod.fst).Nodup := by
  rw [PageView.pageSlots]
  split
  · rename_i slots held
    rw [List.map_map]
    refine slots.keys_nodup.of_map.map_on ?_
    intro left first right second same
    exact List.inj_on_of_nodup_map slots.keys_nodup first second (StateKey.pageSlot.inj same).2
  · exact List.nodup_nil

theorem state_nodes_nodup (stored : document.Stored) (page : Node) :
    ((PageView.stateNodes document page).map Prod.fst).Nodup := by
  rw [PageView.stateNodes, List.map_map]
  refine ((children_nodup stored page.id).filter _).map_on ?_
  intro left first right second same
  have present := ((mem_children_iff stored).1 (List.mem_of_mem_filter first)).1
  have other := ((mem_children_iff stored).1 (List.mem_of_mem_filter second)).1
  exact eq_of_same_id present other (StateKey.node.inj same)

theorem controlled_slots_nodup (holds : document.HoldsPage page) :
    ((PageView.controlledSlots document page schema).map PageView.ControlledSlot.key).Nodup := by
  rw [PageView.controlledSlots, List.map_flatMap]
  apply nodup_of_parts holds.markup_nodup
  · intro element _
    split
    · rw [List.map_map]
      refine (ReadGraph.erase_dups_nodup _).map ?_
      intro left right same
      exact (StateKey.prop.inj same).2
    · exact List.nodup_nil
  · intro left first right second key here there
    have shown := holds.mem_markup_iff.1 first
    have other := holds.mem_markup_iff.1 second
    split at here
    · split at there
      · rw [List.map_map] at here there
        obtain ⟨prop, _, rfl⟩ := List.mem_map.1 here
        obtain ⟨again, _, same⟩ := List.mem_map.1 there
        exact shown.eq_of_same_id holds.stored other (StateKey.prop.inj same).1.symm
      · cases there
    · cases here

theorem keys_nodup (holds : document.HoldsPage page) :
    (PageView.of document page schema).keys.Nodup := by
  have slot {key : StateKey} (listed : key ∈ (PageView.pageSlots page).map Prod.fst) :
      key.rank = 0 := by
    obtain ⟨⟨key, entry⟩, member, rfl⟩ := List.mem_map.1 listed
    obtain ⟨_, _, _, _, _, rfl, _⟩ := mem_page_slots.1 member
    rfl
  have node {key : StateKey} (listed : key ∈ (PageView.stateNodes document page).map Prod.fst) :
      key.rank = 1 := by
    obtain ⟨⟨key, entry⟩, member, rfl⟩ := List.mem_map.1 listed
    obtain ⟨_, _, _, _, rfl, _⟩ := (mem_state_nodes holds.stored).1 member
    rfl
  have prop {key : StateKey} (listed : key ∈
      (PageView.controlledSlots document page schema).map PageView.ControlledSlot.key) :
      key.rank = 2 := by
    obtain ⟨_, _, rfl⟩ := List.mem_map.1 listed
    rfl
  rw [keys_of, List.map_append]
  apply List.nodup_append.2
  refine ⟨List.nodup_append.2 ⟨page_slots_nodup page, state_nodes_nodup holds.stored page, ?_⟩,
    controlled_slots_nodup holds, ?_⟩
  · rintro left first right second rfl
    have ranks := (slot first).symm.trans (node second)
    cases ranks
  · rintro left first right second rfl
    rcases List.mem_append.1 first with first | first
    · have ranks := (slot first).symm.trans (prop second)
      cases ranks
    · have ranks := (node first).symm.trans (prop second)
      cases ranks

theorem given_props_nodup (element : Node) : (PageView.givenProps element).Nodup := by
  rw [PageView.givenProps]
  split
  · exact SortedMap.entries_nodup _
  · exact List.nodup_nil

theorem param_names_nodup (node : Node) : ((PageView.paramsOf node).map Prod.fst).Nodup := by
  rw [PageView.paramsOf]
  split
  · exact SortedMap.keys_nodup _
  · exact List.nodup_nil

theorem shown_values_nodup (holds : document.HoldsPage page) :
    (PageView.of document page schema).shownValues.Nodup := by
  rw [PageView.shownValues]
  apply nodup_of_parts holds.markup_nodup
  · intro element _
    split
    · exact List.nodup_nil
    · refine ((given_props_nodup element).filter _).map ?_
      intro left right same
      exact (Prod.mk.inj same).2
  · intro left _ right _ shown here there
    split at here
    · cases here
    · split at there
      · cases there
      · obtain ⟨_, _, rfl⟩ := List.mem_map.1 here
        obtain ⟨_, _, same⟩ := List.mem_map.1 there
        exact (Prod.mk.inj same).1.symm

end Document

end PageBuilder
