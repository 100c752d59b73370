import PageBuilder.Proofs.Document.Queries
import PageBuilder.Proofs.Page.Shown

/-!
Documents that hold the same page with the same nodes below it. Whatever else they hold, the nodes
of the page have the same children in the same order, and the page shows the same elements.
-/

namespace PageBuilder.Document

def HasOnPage (document : Document) (page : NodeId) (node : Node) : Prop :=
  document.get? node.id = some node ∧ document.OnPage page node.id

structure SamePage (left right : Document) (page : Node) : Prop where
  here : left.HoldsPage page
  there : right.HoldsPage page
  nodes : ∀ node, left.HasOnPage page.id node ↔ right.HasOnPage page.id node

variable {left right : Document} {page : Node}

theorem HasOnPage.child {document : Document} (stored : document.Stored) {page : NodeId}
    {parent child : Node} (above : document.HasOnPage page parent)
    (listed : child ∈ document.children parent.id) : document.HasOnPage page child := by
  obtain ⟨found, step⟩ := (mem_children_iff stored).1 listed
  obtain ⟨distance, under⟩ := above.2
  exact ⟨found, distance + 1, .up step under⟩

theorem HoldsPage.top_on_page {document : Document} (holds : document.HoldsPage page) {node : Node}
    (listed : node ∈ document.childrenIn page.id childrenSlot) :
    document.HasOnPage page.id node := by
  have top : document.HasOnPage page.id page := ⟨holds.found, 0, .self⟩
  exact top.child holds.stored (children_in_subset document _ _ listed)

theorem HoldsPage.top_shallow {document : Document} (holds : document.HoldsPage page) :
    document.Shallow document.size (document.childrenIn page.id childrenSlot) := by
  apply shallow_size holds.valid.rooted
  intro node listed
  exact (holds.top_on_page listed).1

namespace SamePage

theorem refl (holds : left.HoldsPage page) : SamePage left left page :=
  ⟨holds, holds, fun _ => Iff.rfl⟩

theorem trans {middle : Document} (first : SamePage left middle page)
    (second : SamePage middle right page) : SamePage left right page :=
  ⟨first.here, second.there, fun node => (first.nodes node).trans (second.nodes node)⟩

theorem symm (same : SamePage left right page) : SamePage right left page :=
  ⟨same.there, same.here, fun node => (same.nodes node).symm⟩

theorem page_on (same : SamePage left right page) : left.HasOnPage page.id page :=
  ⟨same.here.found, 0, .self⟩

theorem inside_of (same : SamePage left right page) {id : NodeId}
    (inside : id ∈ PageView.nodesInside left page) : id ∈ PageView.nodesInside right page := by
  obtain ⟨⟨node, found⟩, on⟩ := same.here.mem_nodes_inside_iff.1 inside
  have own : node.id = id := same.here.stored found
  subst own
  obtain ⟨present, there⟩ := (same.nodes node).1 ⟨found, on⟩
  exact same.there.mem_nodes_inside_iff.2 ⟨⟨node, present⟩, there⟩

theorem inside_eq (same : SamePage left right page) (id : NodeId) :
    (PageView.nodesInside left page).contains id =
      (PageView.nodesInside right page).contains id := by
  rw [Bool.eq_iff_iff, List.contains_iff_mem, List.contains_iff_mem]
  exact ⟨same.inside_of, same.symm.inside_of⟩

theorem mem_children_in (same : SamePage left right page) {parent : Node}
    (on : left.HasOnPage page.id parent) {slot : String} {child : Node}
    (listed : child ∈ left.childrenIn parent.id slot) :
    child ∈ right.childrenIn parent.id slot := by
  have below := on.child same.here.stored (children_in_subset left _ _ listed)
  have stands := (Document.mem_children_in.1 listed).2
  have found := ((same.nodes child).1 below).1
  exact Document.mem_children_in.2 ⟨(mem_all_nodes_iff same.there.stored).2 found, stands⟩

theorem children_in_eq (same : SamePage left right page) {parent : Node}
    (on : left.HasOnPage page.id parent) (slot : String) :
    left.childrenIn parent.id slot = right.childrenIn parent.id slot := by
  have back := (same.nodes parent).1 on
  symm
  apply Document.children_in_eq same.there.valid.toWellFormed
  · exact children_in_ahead same.here.valid.toWellFormed parent.id slot
  · intro node
    rw [← Document.mem_children_in]
    exact ⟨same.mem_children_in on, same.symm.mem_children_in back⟩

theorem mem_slots_of (same : SamePage left right page) {parent : Node}
    (on : left.HasOnPage page.id parent) {slot : String}
    (listed : slot ∈ left.slotsOf parent.id) : slot ∈ right.slotsOf parent.id := by
  obtain ⟨node, member, stands⟩ := Document.mem_slots_of.1 listed
  have kept := same.mem_children_in on (Document.mem_children_in.2 ⟨member, stands⟩)
  exact Document.mem_slots_of.2 ⟨node, Document.mem_children_in.1 kept⟩

theorem slots_of_eq (same : SamePage left right page) {parent : Node}
    (on : left.HasOnPage page.id parent) : left.slotsOf parent.id = right.slotsOf parent.id := by
  have back := (same.nodes parent).1 on
  apply SortedMap.keys_eq_of_mem
  intro slot
  exact ⟨same.mem_slots_of on, same.symm.mem_slots_of back⟩

theorem child_slots_eq (same : SamePage left right page) {parent : Node}
    (on : left.HasOnPage page.id parent) :
    left.childSlots parent.id = right.childSlots parent.id := by
  rw [childSlots, childSlots, same.slots_of_eq on]
  apply List.map_congr_left
  intro slot _
  rw [same.children_in_eq on slot]

theorem children_eq (same : SamePage left right page) {parent : Node}
    (on : left.HasOnPage page.id parent) : left.children parent.id = right.children parent.id := by
  rw [children, children, same.child_slots_eq on]

theorem elements_below_eq (same : SamePage left right page) {depth other : Nat}
    {nodes : List Node} (on : ∀ node ∈ nodes, left.HasOnPage page.id node)
    (shallow : left.Shallow depth nodes) (further : right.Shallow other nodes) :
    left.elementsBelow depth nodes = right.elementsBelow other nodes := by
  have belowNil (document : Document) (depth : Nat) : document.elementsBelow depth [] = [] := by
    cases depth <;> rfl
  induction depth generalizing other nodes with
  | zero => rw [shallow.eq_nil, belowNil, belowNil]
  | succ depth ih =>
      cases other with
      | zero => rw [further.eq_nil, belowNil, belowNil]
      | succ other =>
          rw [elementsBelow, elementsBelow]
          apply List.flatMap_congr
          intro element listed
          have member := (List.mem_filter.1 listed).1
          have above := on element member
          have children := same.children_eq above
          rw [ih (fun child inside => above.child same.here.stored inside)
            (shallow.children same.here.stored member)
            (children ▸ further.children same.there.stored member), children]

theorem markup_elements_eq (same : SamePage left right page) :
    left.markupElements page.id = right.markupElements page.id := by
  have further := same.there.top_shallow
  rw [← same.children_in_eq same.page_on] at further
  rw [markupElements, markupElements, ← same.children_in_eq same.page_on]
  apply same.elements_below_eq _ same.here.top_shallow further
  intro node listed
  exact same.here.top_on_page listed

end SamePage

end PageBuilder.Document
