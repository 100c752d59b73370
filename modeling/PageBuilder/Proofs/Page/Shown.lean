import PageBuilder.Page.Entry
import PageBuilder.Proofs.Document.Valid

/-!
What lies on a page: the elements that it shows, and why nodes of some types stand in the page
itself if they lie anywhere below it.
-/

namespace PageBuilder.Document

/-- Elements among some nodes, and elements that these hold, so many levels further down. -/
inductive Nested (document : Document) (tops : List Node) : Nat → Node → Prop
  | top {element : Node} (member : element ∈ tops) (type : element.type = .element) :
      Nested document tops 0 element
  | inner {level : Nat} {upper element : Node} (above : Nested document tops level upper)
      (child : element ∈ document.children upper.id) (type : element.type = .element) :
      Nested document tops (level + 1) element

/-- A page shows the elements in one of its slots, and all that are nested in them. -/
def Shown (document : Document) (page : NodeId) (element : Node) : Prop :=
  ∃ level, Nested document (document.childrenIn page childrenSlot) level element

/-- A page of a valid document. -/
structure HoldsPage (document : Document) (page : Node) : Prop where
  valid : document.Valid
  found : document.get? page.id = some page
  type : page.type = .page

variable {document : Document} {page : Node}

namespace Nested

variable {tops : List Node} {level : Nat} {element : Node}

theorem type (nested : Nested document tops level element) : element.type = .element := by
  cases nested with
  | top _ type => exact type
  | inner _ _ type => exact type

theorem succ_iff : Nested document tops (level + 1) element ↔
    ∃ top ∈ tops, top.type = .element ∧
      Nested document (document.children top.id) level element := by
  constructor
  · intro nested
    induction level generalizing element with
    | zero =>
        cases nested with
        | inner above child type =>
            cases above with
            | top member upper => exact ⟨_, member, upper, .top child type⟩
    | succ level ih =>
        cases nested with
        | inner above child type =>
            obtain ⟨top, member, upper, rest⟩ := ih above
            exact ⟨top, member, upper, .inner rest child type⟩
  · intro nested
    obtain ⟨top, member, upper, rest⟩ := nested
    induction rest with
    | top child type => exact .inner (.top member upper) child type
    | inner _ child type ih => exact .inner ih child type

theorem found (stored : document.Stored) (present : tops ⊆ document.allNodes)
    (nested : Nested document tops level element) : document.get? element.id = some element := by
  cases nested with
  | top member _ => exact (mem_all_nodes_iff stored).1 (present member)
  | inner _ child _ => exact ((mem_children_iff stored).1 child).1

theorem under (stored : document.Stored) (nested : Nested document tops level element) :
    ∃ top ∈ tops, Under document top.id level element.id := by
  induction nested with
  | top member type => exact ⟨_, member, .self⟩
  | inner above child type ih =>
      obtain ⟨top, member, under⟩ := ih
      exact ⟨top, member, .up ((mem_children_iff stored).1 child).2 under⟩

end Nested

theorem elements_below_append (document : Document) (depth : Nat) (nodes more : List Node) :
    document.elementsBelow depth (nodes ++ more) =
      document.elementsBelow depth nodes ++ document.elementsBelow depth more := by
  cases depth with
  | zero => rfl
  | succ depth =>
      rw [elementsBelow, elementsBelow, elementsBelow, List.filter_append, List.flatMap_append]

theorem elements_below_slots (document : Document) (depth : Nat)
    (slots : List (String × List Node)) :
    document.elementsBelow depth (slots.flatMap Prod.snd) =
      slots.flatMap fun slot => document.elementsBelow depth slot.2 := by
  induction slots with
  | nil =>
      cases depth with
      | zero => rfl
      | succ depth => rfl
  | cons slot slots ih =>
      rw [List.flatMap_cons, elements_below_append, ih, List.flatMap_cons]

theorem names_of_child_slots {Value : Type} (document : Document) (parent : NodeId)
    (render : List Node → Value) :
    NamesIncrease ((document.childSlots parent).map fun slot => (slot.1, render slot.2)) := by
  apply List.pairwise_map.2
  rw [childSlots]
  apply List.pairwise_map.2
  exact SortedMap.keys_increase _

theorem mem_elements_below_iff {depth : Nat} {nodes : List Node} {element : Node} :
    element ∈ document.elementsBelow depth nodes ↔
      ∃ level < depth, Nested document nodes level element := by
  induction depth generalizing nodes with
  | zero => simp [elementsBelow]
  | succ depth ih =>
      rw [elementsBelow, List.mem_flatMap]
      constructor
      · intro listed
        obtain ⟨top, member, inside⟩ := listed
        obtain ⟨member, type⟩ := List.mem_filter.1 member
        have upper : top.type = .element := by simpa using type
        rcases List.mem_cons.1 inside with rfl | later
        · exact ⟨0, Nat.succ_pos depth, .top member upper⟩
        · obtain ⟨level, bound, nested⟩ := ih.1 later
          exact ⟨level + 1, by omega, Nested.succ_iff.2 ⟨top, member, upper, nested⟩⟩
      · intro shown
        obtain ⟨level, bound, nested⟩ := shown
        cases level with
        | zero =>
            cases nested with
            | top member type =>
                exact ⟨element, List.mem_filter.2 ⟨member, by simpa using type⟩,
                  List.mem_cons_self⟩
        | succ level =>
            obtain ⟨top, member, upper, rest⟩ := Nested.succ_iff.1 nested
            refine ⟨top, List.mem_filter.2 ⟨member, by simpa using upper⟩, ?_⟩
            exact List.mem_cons_of_mem _ (ih.2 ⟨level, by omega, rest⟩)

def OnPage (document : Document) (page id : NodeId) : Prop :=
  ∃ distance, Under document page distance id

namespace HoldsPage

variable {id : NodeId} {node : Node}

theorem stored (holds : document.HoldsPage page) : document.Stored := holds.valid.stored

theorem mem_markup_iff (holds : document.HoldsPage page) {element : Node} :
    element ∈ document.markupElements page.id ↔ document.Shown page.id element := by
  rw [markupElements, mem_elements_below_iff]
  constructor
  · intro listed
    obtain ⟨level, _, nested⟩ := listed
    exact ⟨level, nested⟩
  · intro shown
    obtain ⟨level, nested⟩ := shown
    obtain ⟨top, member, under⟩ := nested.under holds.stored
    have present := (mem_all_nodes_iff holds.stored).1 (mem_children_in.1 member).1
    exact ⟨level, holds.valid.rooted.under_lt_size under ⟨top, present⟩, nested⟩

theorem on_page_cases (holds : document.HoldsPage page) (inside : document.OnPage page.id id)
    (found : document.get? id = some node) :
    id = page.id ∨ ∃ upper, document.parentId? id = some upper.id ∧
      document.get? upper.id = some upper ∧ document.OnPage page.id upper.id ∧
      node.type.fitsUnder upper.type = true := by
  obtain ⟨distance, under⟩ := inside
  cases distance with
  | zero => exact Or.inl under.eq_of_zero
  | succ distance =>
      obtain ⟨parent, step, above⟩ := under.of_succ
      have placed := step
      rw [parent_id_of_get found] at placed
      obtain ⟨placement, here, rfl⟩ := Option.map_eq_some_iff.1 placed
      obtain ⟨upper, present, fits⟩ := holds.valid.fits found here
      have own : upper.id = placement.parent := holds.stored present
      rw [← own] at step present above
      exact Or.inr ⟨upper, step, present, ⟨distance, above⟩, fits⟩

theorem not_application (holds : document.HoldsPage page) (inside : document.OnPage page.id id)
    (found : document.get? id = some node) : node.type ≠ .application := by
  intro type
  rcases holds.on_page_cases inside found with same | above
  · rw [same, holds.found] at found
    cases found
    rw [holds.type] at type
    cases type
  · obtain ⟨upper, _, _, _, fits⟩ := above
    rw [type] at fits
    cases fits

theorem eq_of_page (holds : document.HoldsPage page) (inside : document.OnPage page.id id)
    (found : document.get? id = some node) (type : node.type = .page) : id = page.id := by
  rcases holds.on_page_cases inside found with same | above
  · exact same
  · obtain ⟨upper, _, present, around, fits⟩ := above
    rw [type] at fits
    have application : upper.type = .application := by
      simpa [NodeType.fitsUnder, NodeType.parents] using fits
    exact absurd application (holds.not_application around present)

theorem parent_of_page_state (holds : document.HoldsPage page)
    (inside : document.OnPage page.id id) (found : document.get? id = some node)
    (type : node.type.isPageState = true) : document.parentId? id = some page.id := by
  rcases holds.on_page_cases inside found with same | above
  · rw [same, holds.found] at found
    cases found
    rw [holds.type] at type
    cases type
  · obtain ⟨upper, step, present, around, fits⟩ := above
    have page : upper.type = .page := by
      revert type fits
      cases node.type with
      | derivedState | queryState | fetchedState =>
          simp [NodeType.fitsUnder, NodeType.parents]
      | application | theme | api | page | element => simp [NodeType.isPageState]
    rw [← holds.eq_of_page around present page]
    exact step

theorem mem_nodes_inside_iff (holds : document.HoldsPage page) :
    id ∈ PageView.nodesInside document page ↔
      (∃ node, document.get? id = some node) ∧ document.OnPage page.id id := by
  have there : ∃ node, document.get? page.id = some node := ⟨page, holds.found⟩
  rw [PageView.nodesInside, List.mem_cons, List.mem_map]
  constructor
  · intro listed
    rcases listed with rfl | below
    · exact ⟨there, 0, .self⟩
    · obtain ⟨node, member, rfl⟩ := below
      obtain ⟨found, distance, under⟩ :=
        (mem_descendants_iff holds.stored holds.valid.rooted there).1 member
      exact ⟨⟨node, found⟩, distance + 1, under⟩
  · intro held
    obtain ⟨⟨node, found⟩, distance, under⟩ := held
    cases distance with
    | zero => exact Or.inl under.eq_of_zero
    | succ distance =>
        have own : node.id = id := holds.stored found
        subst own
        exact Or.inr ⟨node, (mem_descendants_iff holds.stored holds.valid.rooted there).2
          ⟨found, distance, under⟩, rfl⟩

end HoldsPage

namespace Shown

variable {element : Node}

theorem type (shown : document.Shown page.id element) : element.type = .element := by
  obtain ⟨level, nested⟩ := shown
  exact nested.type

theorem found (shown : document.Shown page.id element) (stored : document.Stored) :
    document.get? element.id = some element := by
  obtain ⟨level, nested⟩ := shown
  apply nested.found stored
  intro top member
  exact (mem_children_in.1 member).1

theorem eq_of_same_id (shown : document.Shown page.id element) (stored : document.Stored)
    {other : Node} (again : document.Shown page.id other) (same : element.id = other.id) :
    element = other :=
  Document.eq_of_same_id (shown.found stored) (again.found stored) same

theorem on_page (shown : document.Shown page.id element) (stored : document.Stored) :
    document.OnPage page.id element.id := by
  obtain ⟨level, nested⟩ := shown
  obtain ⟨top, member, under⟩ := nested.under stored
  obtain ⟨listed, stands⟩ := mem_children_in.1 member
  obtain ⟨placement, placed, parent, _⟩ := stands_in_iff.1 stands
  have step : document.parentId? top.id = some page.id := by
    rw [parent_id_of_get ((mem_all_nodes_iff stored).1 listed), Node.parent?, placed,
      Option.map_some, parent]
  exact ⟨1 + level, under.trans (.single step)⟩

end Shown

end PageBuilder.Document
