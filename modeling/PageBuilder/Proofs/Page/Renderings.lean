import PageBuilder.Proofs.Code.Placed
import PageBuilder.Proofs.Page.Markers
import PageBuilder.Proofs.Page.Once
import PageBuilder.Proofs.Page.RuntimeNames
import PageBuilder.Proofs.Page.SamePage

/-!
What is rendered for a page. Every element that the page shows is rendered once, and its fragment
stands once in the fragment of the element around it, whatever slot it is in and whether or not the
component around it is known.
-/

namespace PageBuilder

namespace PageCompiler

open Code (MarkupTag Piece Places assemble)
open Text (Solid)

def elementMarkup {Item : Type} (context : MarkupContext) (element : Node)
    (slots : SortedMap (List Item)) (shown : Item → String) : String :=
  marked context element (elementTag context element (slots.mapValues (List.map shown))).render

/-- The fragment of an element, and the renderings that it is made from, slot after slot. -/
inductive Rendering where
  | of (element : Node) (text : String) (inner : List Rendering)

namespace Rendering

def element : Rendering → Node
  | .of element _ _ => element

def text : Rendering → String
  | .of _ text _ => text

def inner : Rendering → List Rendering
  | .of _ _ inner => inner

mutual

def all : Rendering → List Rendering
  | .of element text inner => .of element text inner :: allOf inner

def allOf : List Rendering → List Rendering
  | [] => []
  | first :: rest => first.all ++ allOf rest

end

theorem all_of_eq (renderings : List Rendering) : allOf renderings = renderings.flatMap all := by
  induction renderings with
  | nil => rfl
  | cons first rest ih => rw [allOf, List.flatMap_cons, ih]

theorem all_eq (rendering : Rendering) : rendering.all = rendering :: allOf rendering.inner := by
  cases rendering with
  | of element text held => rw [all, inner]

end Rendering

def Rendering.make (context : MarkupContext) (element : Node)
    (slots : SortedMap (List Rendering)) : Rendering :=
  .of element (elementMarkup context element slots Rendering.text) slots.values.flatten

def renderedSlots (document : Document) (element : Node) (inside : List Node → List Rendering) :
    SortedMap (List Rendering) :=
  SortedMap.ofList ((document.childSlots element.id).map fun slot => (slot.1, inside slot.2))

/-- The renderings of elements, with those of what lies at most `depth` levels below them. -/
def renderings (context : MarkupContext) : Nat → List Node → List Rendering
  | 0, _ => []
  | depth + 1, nodes =>
      (nodes.filter isElement).map fun element =>
        .make context element (renderedSlots context.document element (renderings context depth))

/-- How a rendering is made from those of the elements in the slots of its element. -/
structure Composed (context : MarkupContext) (rendering : Rendering)
    (slots : SortedMap (List Rendering)) : Prop where
  /-- Each slot has the renderings of its elements, in their order. -/
  held : slots.entries.map (fun slot => (slot.1, slot.2.map Rendering.element)) =
    (context.document.childSlots rendering.element.id).map
      fun slot => (slot.1, slot.2.filter isElement)
  inner : rendering.inner = slots.values.flatten
  text : rendering.text = elementMarkup context rendering.element slots Rendering.text
  /-- No matter what the inner renderings say, each of them stands in the outer one once. -/
  places : Places rendering.inner fun shown =>
    elementMarkup context rendering.element slots shown ++ "\n"

section Slots

variable {context : MarkupContext}

theorem entries_rendered_slots (document : Document) (element : Node)
    (inside : List Node → List Rendering) :
    (renderedSlots document element inside).entries =
      (document.childSlots element.id).map fun slot => (slot.1, inside slot.2) :=
  SortedMap.entries_of_list (document.names_of_child_slots element.id inside)

theorem values_rendered_slots (document : Document) (element : Node)
    (inside : List Node → List Rendering) :
    (renderedSlots document element inside).values.flatten =
      (document.childSlots element.id).flatMap fun slot => inside slot.2 := by
  rw [SortedMap.values, entries_rendered_slots, List.map_map, List.flatMap_def]
  rfl

theorem map_rendered_slots (document : Document) (element : Node)
    (inside : List Node → List Rendering) :
    (renderedSlots document element inside).mapValues (List.map Rendering.text) =
      SortedMap.ofList ((document.childSlots element.id).map fun slot =>
        (slot.1, (inside slot.2).map Rendering.text)) := by
  apply SortedMap.ext_entries
  rw [SortedMap.entries_of_list
    (document.names_of_child_slots element.id fun nodes => (inside nodes).map Rendering.text)]
  change (renderedSlots document element inside).entries.map _ = _
  rw [entries_rendered_slots, List.map_map]
  rfl

theorem render_elements_eq (context : MarkupContext) (depth : Nat) (nodes : List Node) :
    renderElements context depth nodes = (renderings context depth nodes).map Rendering.text := by
  induction depth generalizing nodes with
  | zero => rfl
  | succ depth ih =>
      rw [renderElements, renderings, List.map_map]
      apply List.map_congr_left
      intro element _
      have slots := map_rendered_slots context.document element (renderings context depth)
      dsimp only [Function.comp_apply, Rendering.make, Rendering.text, elementMarkup]
      rw [slots]
      simp only [ih]

theorem elements_of_renderings (context : MarkupContext) (depth : Nat) (nodes : List Node) :
    (renderings context depth nodes).map Rendering.element =
      if depth = 0 then [] else nodes.filter isElement := by
  cases depth with
  | zero => rfl
  | succ depth =>
      rw [renderings, List.map_map, if_neg (Nat.succ_ne_zero depth)]
      exact List.map_id _

theorem rendered_elements (context : MarkupContext) (depth : Nat) (nodes : List Node) :
    (Rendering.allOf (renderings context depth nodes)).map Rendering.element =
      context.document.elementsBelow depth nodes := by
  induction depth generalizing nodes with
  | zero => rfl
  | succ depth ih =>
      rw [Rendering.all_of_eq, renderings, List.flatMap_map, List.map_flatMap,
        Document.elementsBelow]
      apply List.flatMap_congr
      intro element _
      have below : (Rendering.allOf (renderedSlots context.document element
          (renderings context depth)).values.flatten).map Rendering.element =
            context.document.elementsBelow depth (context.document.children element.id) := by
        rw [values_rendered_slots, Document.children, Document.elements_below_slots,
          Rendering.all_of_eq, List.flatMap_assoc, List.map_flatMap]
        apply List.flatMap_congr
        intro slot _
        rw [← Rendering.all_of_eq, ih]
      rw [Rendering.all_eq, List.map_cons]
      exact congrArg (element :: ·) below

theorem solid_rendering {depth : Nat} {nodes : List Node} {rendering : Rendering}
    (member : rendering ∈ renderings context depth nodes) : Solid rendering.text.toList := by
  cases depth with
  | zero => exact absurd member List.not_mem_nil
  | succ depth =>
      rw [renderings] at member
      obtain ⟨element, _, rfl⟩ := List.mem_map.1 member
      exact MarkerOnly.solid_fragment context element _

theorem places_tag {Item : Type} (context : MarkupContext) (element : Node)
    (slots : SortedMap (List Item)) : Places slots.values.flatten fun shown =>
      (elementTag context element (slots.mapValues (List.map shown))).render ++ "\n" := by
  cases known : context.catalog.find? (element.component?.getD "") with
  | some definition =>
      apply (MarkupTag.places_render slots _ (attributes context definition element)).congr
      intro shown _
      rw [element_tag_known known]
      rfl
  | none =>
      have all := MarkupTag.places_render
        (SortedMap.empty.insert childrenSlot slots.values.flatten)
        (context.react ++ ".Fragment") []
      have held : (SortedMap.empty.insert childrenSlot slots.values.flatten).values.flatten =
          slots.values.flatten := List.append_nil _
      rw [held] at all
      apply all.congr
      intro shown _
      have flat : (slots.mapValues (List.map shown)).values.flatten =
          slots.values.flatten.map shown := by
        rw [List.map_flatten, SortedMap.values, SortedMap.values, SortedMap.mapValues,
          List.map_map, List.map_map]
        rfl
      rw [element_tag_unknown known, flat]
      rfl

theorem places_element {Item : Type} (context : MarkupContext) (element : Node)
    (slots : SortedMap (List Item)) : Places slots.values.flatten fun shown =>
      elementMarkup context element slots shown ++ "\n" := by
  have tag := places_tag context element slots
  cases marker : context.marker with
  | none =>
      apply tag.congr
      intro shown _
      rw [elementMarkup, marked, marker]
  | some name =>
      have inside := (tag.indent (Nat.le_refl 1)).before (Text.whole_line s!"</{name}>")
      have opened := inside.behind
        (Text.whole_line s!"<{name} nodeId={Json.stringText element.id}>")
      apply opened.congr
      intro shown _
      have solid := MarkupTag.solid_render
        (elementTag context element (slots.mapValues (List.map shown)))
      rw [elementMarkup, marked, marker, Code.indent_lines_line 1 solid]
      simp [String.append_assoc, ToString.toString]

theorem elements_of_slot {depth : Nat} {parent : NodeId} {slot : String × List Node}
    (shallow : context.document.Shallow depth (context.document.children parent))
    (listed : slot ∈ context.document.childSlots parent) :
    (renderings context depth slot.2).map Rendering.element = slot.2.filter isElement := by
  rw [elements_of_renderings]
  split
  · rename_i zero
    rw [zero] at shallow
    have inside : slot.2 ⊆ context.document.children parent := fun node member =>
      List.mem_flatMap.2 ⟨slot, listed, member⟩
    rw [shallow.eq_nil] at inside
    rw [List.eq_nil_of_subset_nil inside, List.filter_nil]
  · rfl

theorem composed_make {depth : Nat} {element : Node}
    (shallow : context.document.Shallow depth (context.document.children element.id)) :
    Composed context
      (.make context element (renderedSlots context.document element (renderings context depth)))
      (renderedSlots context.document element (renderings context depth)) := by
  refine ⟨?_, rfl, rfl, places_element context element _⟩
  rw [entries_rendered_slots, List.map_map]
  apply List.map_congr_left
  intro slot listed
  exact congrArg (Prod.mk slot.1) (elements_of_slot shallow listed)

/-- Every rendering, on every level, is made from those of the elements below its own. -/
theorem composed_renderings (context : MarkupContext) (stored : context.document.Stored)
    {depth : Nat} {nodes : List Node} (shallow : context.document.Shallow depth nodes)
    {rendering : Rendering}
    (member : rendering ∈ Rendering.allOf (renderings context depth nodes)) :
    ∃ slots, Composed context rendering slots ∧
      ∀ inner ∈ rendering.inner, Solid inner.text.toList := by
  induction depth generalizing nodes with
  | zero => exact absurd member List.not_mem_nil
  | succ depth ih =>
      rw [Rendering.all_of_eq, renderings, List.flatMap_map, List.mem_flatMap] at member
      obtain ⟨element, listed, inside⟩ := member
      have below := shallow.children stored (List.mem_of_mem_filter listed)
      have values := values_rendered_slots context.document element (renderings context depth)
      rw [Rendering.all_eq] at inside
      rcases List.mem_cons.1 inside with rfl | deeper
      · refine ⟨_, composed_make below, fun inner held => ?_⟩
        change inner ∈ (renderedSlots _ _ _).values.flatten at held
        rw [values] at held
        obtain ⟨slot, _, among⟩ := List.mem_flatMap.1 held
        exact solid_rendering among
      · change rendering ∈ Rendering.allOf (renderedSlots _ _ _).values.flatten at deeper
        rw [values, Rendering.all_of_eq, List.flatMap_assoc, List.mem_flatMap] at deeper
        obtain ⟨slot, known, among⟩ := deeper
        rw [← Rendering.all_of_eq] at among
        refine ih (below.subset fun node held => ?_) among
        exact List.mem_flatMap.2 ⟨slot, known, held⟩

theorem Composed.assembled {rendering : Rendering} {slots : SortedMap (List Rendering)}
    (composed : Composed context rendering slots)
    (solid : ∀ inner ∈ rendering.inner, Solid inner.text.toList) :
    ∃ pieces : List (Piece Rendering), (∀ piece ∈ pieces, piece.OnLines) ∧
      (pieces.filterMap Piece.item?).Perm rendering.inner ∧
      rendering.text ++ "\n" = assemble Rendering.text pieces := by
  obtain ⟨pieces, onLines, once, made⟩ := composed.places
  refine ⟨pieces, onLines, once, ?_⟩
  rw [composed.text]
  exact made Rendering.text solid

end Slots

end PageCompiler

namespace Document

open PageCompiler
open Code (Piece assemble)

variable {document : Document} {catalog : Catalog}

/-- The markup of a page renders the elements that the page shows, each of them once and in their
order. A fragment is made of lines of its own and of the fragments of the elements in its slots,
each of which stands there once, moved in. All of these elements have props in the bindings. -/
theorem markup_rendered_once (valid : document.Valid) {id : NodeId} {options : CompileOptions}
    {compiled : CompiledPage} (done : document.compilePage id catalog options = .ok compiled) :
    ∃ page plan, document.nodeOfType id .page = .ok page ∧
      PageCompiler.plan document page catalog options = .ok plan ∧
      ∃ tops, tops = renderings (plan.context document catalog options) document.size
          (document.childrenIn id childrenSlot) ∧
        plan.roots document catalog options = tops.map Rendering.text ∧
        (Rendering.allOf tops).map Rendering.element = document.markupElements id ∧
        (document.markupElements id).Nodup ∧
        (∀ rendering ∈ Rendering.allOf tops, ∃ slots,
          Composed (plan.context document catalog options) rendering slots ∧
          ∃ pieces : List (Piece Rendering), (∀ piece ∈ pieces, piece.OnLines) ∧
            (pieces.filterMap Piece.item?).Perm rendering.inner ∧
            rendering.text ++ "\n" = assemble Rendering.text pieces) ∧
        ∀ element ∈ document.markupElements id, ∃ props,
          plan.bindings.props.get? element.id = some props := by
  obtain ⟨page, plan, found, planned, _⟩ := compile_page_ok done
  obtain ⟨holds, rfl⟩ := holds_page valid found
  have own := plan_page planned
  obtain ⟨names, bound⟩ := plan_bound holds planned
  refine ⟨page, plan, found, planned, _, rfl, ?_, rendered_elements _ _ _, holds.markup_nodup,
    fun rendering member => ?_, fun element listed => ?_⟩
  · rw [Plan.roots, own, render_elements_eq]
  · obtain ⟨slots, composed, solid⟩ :=
      composed_renderings (plan.context document catalog options) holds.stored
        holds.top_shallow member
    exact ⟨slots, composed, composed.assembled solid⟩
  · rw [bound.props]
    exact ⟨_, props_of_shown holds names (holds.mem_markup_iff.1 listed)⟩

def slottedPage : Document :=
  let page : Node := ⟨"p", "home", none, .empty, .page .empty⟩
  let element (id component : String) : Node :=
    ⟨id, id, none, .ofList [("component", .constString component)], .element .empty⟩
  (ofRoot "r").run [.addNode page "r" "pages" none, .addNode (element "a" "T") "p" "children" none,
    .addNode (element "b" "U") "a" "header" none, .addNode (element "c" "T") "b" "footer" none,
    .addNode (element "d" "T") "b" "children" none, .addNode (element "e" "T") "a" "children" none]

theorem markup_rendered_once_sample :
    slottedPage.Valid ∧ ∃ (compiled : CompiledPage) (plan : Plan),
      slottedPage.compilePage "p" oneComponent rawOptions = .ok compiled ∧
      ∃ tops, plan.roots slottedPage oneComponent rawOptions = tops.map Rendering.text ∧
        (Rendering.allOf tops).map (fun rendering => rendering.element.id) =
          ["a", "e", "b", "d", "c"] := by
  have valid : slottedPage.Valid := valid_run (valid_of_root "r") _
  have compiles : (slottedPage.compilePage "p" oneComponent rawOptions).map
      CompiledPage.component = .ok "Home" := by
    decide +kernel
  obtain ⟨compiled, done, _⟩ := Outcome.map_eq_ok.1 compiles
  obtain ⟨_, plan, _, _, tops, _, roots, elements, _⟩ := markup_rendered_once valid done
  have ids : (slottedPage.markupElements "p").map Node.id = ["a", "e", "b", "d", "c"] := by
    decide +kernel
  refine ⟨valid, compiled, plan, done, tops, roots, ?_⟩
  rw [← ids, ← elements, List.map_map]
  rfl

end Document

end PageBuilder
