import PageBuilder.Proofs.Code.Wrapped.Markup
import PageBuilder.Proofs.Page.Source

/-!
Markers in the markup of a page. With markers every element that the page shows stands in a wrapper
of its own, and without these wrappers the markup is that without markers.
-/

namespace PageBuilder

namespace Code.Writer

def behind (writer : Writer) (text : String) : Writer :=
  { writer with text := text ++ writer.text }

variable (writer : Writer) (text more : String)

theorem add_behind : (writer.behind text).add more = (writer.add more).behind text := by
  rw [add, add, behind, behind, String.append_assoc]

theorem add_indented_behind :
    (writer.behind text).addIndented more = (writer.addIndented more).behind text := by
  unfold addIndented
  rw [show (writer.behind text).level = writer.level from rfl, add_behind, add_behind]

theorem add_line_behind :
    (writer.behind text).addLine more = (writer.addLine more).behind text := by
  rw [addLine, addLine, add_indented_behind, add_behind]

theorem add_lines_behind :
    (writer.behind text).addLines more = (writer.addLines more).behind text := by
  rw [addLines, addLines, ← add_behind]
  rfl

theorem indent_behind : (writer.behind text).indent = writer.indent.behind text := rfl

theorem dedent_behind : (writer.behind text).dedent = writer.dedent.behind text := rfl

end Code.Writer

namespace PageCompiler

open Code (WrappedFragments WrappedSlots Wraps Writer)

/-- Contexts that differ in the markers, and perhaps in imports. -/
structure MarkerOnly (marker : String) (wrapped plain : MarkupContext) : Prop where
  document : wrapped.document = plain.document
  props : wrapped.bindings.props = plain.bindings.props
  catalog : wrapped.catalog = plain.catalog
  react : wrapped.react = plain.react
  evaluate : wrapped.evaluate = plain.evaluate
  pageScope : wrapped.pageScope = plain.pageScope
  on : wrapped.marker = some marker
  off : plain.marker = none
  unbroken : '\n' ∉ marker.toList

def SameTag (wrapped plain : MarkupContext) (element : Node) : Prop :=
  ∀ definition, plain.catalog.find? (element.component?.getD "") = some definition →
    aliasOr wrapped.imports definition.source definition.exported =
      aliasOr plain.imports definition.source definition.exported

def idsOf (elements : List Node) : Multiset String := (elements.map Node.id : List String)

theorem ids_cons (element : Node) (elements : List Node) :
    idsOf (element :: elements) = element.id ::ₘ idsOf elements := rfl

theorem ids_append (elements more : List Node) :
    idsOf (elements ++ more) = idsOf elements + idsOf more := by
  rw [idsOf, List.map_append]
  rfl

namespace MarkerOnly

variable {marker : String} {wrapped plain : MarkupContext}

theorem attributes_eq (only : MarkerOnly marker wrapped plain) (definition : ComponentDefinition)
    (element : Node) :
    attributes wrapped definition element = attributes plain definition element := by
  have given : propAttributes wrapped = propAttributes plain := by
    funext definition props entry
    unfold propAttributes evaluation
    rw [only.evaluate, only.pageScope]
  unfold attributes
  rw [only.props, given]

theorem tag (only : MarkerOnly marker wrapped plain) {element : Node}
    (same : SameTag wrapped plain element) {nodes : Multiset String}
    {first second : SortedMap (List String)}
    (slots : WrappedSlots marker nodes first.entries second.entries) :
    Wraps marker nodes (elementTag wrapped element first).render
      (elementTag plain element second).render := by
  cases known : plain.catalog.find? (element.component?.getD "") with
  | some definition =>
      rw [element_tag_known known, element_tag_known (only.catalog ▸ known)]
      exact Code.MarkupTag.wraps_render (same definition known)
        (only.attributes_eq definition element) slots
  | none =>
      rw [element_tag_unknown known, element_tag_unknown (only.catalog ▸ known)]
      refine Code.MarkupTag.wraps_render ?_ rfl ?_
      · rw [only.react]
      · have all : WrappedSlots marker (nodes + 0) [(childrenSlot, first.values.flatten)]
            [(childrenSlot, second.values.flatten)] := .cons slots.all .nil
        rw [Multiset.add_zero] at all
        exact all

theorem element (only : MarkerOnly marker wrapped plain) {element : Node}
    (same : SameTag wrapped plain element) {nodes : Multiset String}
    {first second : SortedMap (List String)}
    (slots : WrappedSlots marker nodes first.entries second.entries) :
    Wraps marker (element.id ::ₘ nodes)
      (marked wrapped element (elementTag wrapped element first).render)
      (marked plain element (elementTag plain element second).render) := by
  have inside := (only.tag same slots).wrapper only.unbroken element.id
  unfold marked
  rw [only.on, only.off]
  have opening : Code.openingTag marker element.id ++ "\n" =
      s!"<{marker} nodeId={Json.stringText element.id}>\n" := by
    simp [Code.openingTag, ToString.toString, String.append_assoc]
  rw [opening, ← String.append_assoc] at inside
  exact inside

theorem slots {depth : Nat} (slots : List (String × List Node))
    (fragments : ∀ slot ∈ slots, WrappedFragments marker
      (idsOf (plain.document.elementsBelow depth slot.2))
      (renderElements wrapped depth slot.2) (renderElements plain depth slot.2)) :
    WrappedSlots marker
      (idsOf (slots.flatMap fun slot => plain.document.elementsBelow depth slot.2))
      (slots.map fun slot => (slot.1, renderElements wrapped depth slot.2))
      (slots.map fun slot => (slot.1, renderElements plain depth slot.2)) := by
  induction slots with
  | nil => exact .nil
  | cons slot slots ih =>
      rw [List.flatMap_cons, ids_append]
      exact .cons (fragments slot List.mem_cons_self)
        (ih fun other member => fragments other (List.mem_cons_of_mem _ member))

theorem solid_fragment (context : MarkupContext) (element : Node)
    (slots : SortedMap (List String)) :
    Text.Solid (marked context element (elementTag context element slots).render).toList := by
  unfold marked
  split
  · exact Code.MarkupTag.solid_render _
  · rw [String.toList_append]
    exact Text.Solid.behind (Text.solid_closed _) _

theorem elements (only : MarkerOnly marker wrapped plain) {depth : Nat} {nodes : List Node}
    (same : ∀ element ∈ plain.document.elementsBelow depth nodes, SameTag wrapped plain element) :
    WrappedFragments marker (idsOf (plain.document.elementsBelow depth nodes))
      (renderElements wrapped depth nodes) (renderElements plain depth nodes) := by
  induction depth generalizing nodes with
  | zero => exact .nil
  | succ depth ih =>
      rw [Document.elementsBelow] at same ⊢
      rw [renderElements, renderElements, only.document]
      change WrappedFragments marker _ ((nodes.filter fun node => node.type = .element).map _)
        ((nodes.filter fun node => node.type = .element).map _)
      -- Both sides go through the elements of this level one by one. What is below them is in reach
      -- of `ih`, the hypothesis for a smaller depth.
      generalize (nodes.filter fun node => node.type = .element) = tops at same
      induction tops with
      | nil => exact .nil
      | cons element tops further =>
          rw [List.flatMap_cons] at same ⊢
          have rest := further fun other member =>
            same other (List.mem_append_right _ member)
          have inner := Document.elements_below_slots plain.document depth
            (plain.document.childSlots element.id)
          rw [← Document.children] at inner
          rw [ids_append, ids_cons]
          refine .cons (solid_fragment _ _ _) (solid_fragment _ _ _) ?_ rest
          have here := same element (List.mem_append_left _ List.mem_cons_self)
          refine only.element here ?_
          rw [SortedMap.entries_of_list (plain.document.names_of_child_slots _ _),
            SortedMap.entries_of_list (plain.document.names_of_child_slots _ _), inner]
          refine MarkerOnly.slots _ fun slot member => ih fun below under => ?_
          apply same below
          apply List.mem_append_left
          apply List.mem_cons_of_mem
          rw [inner]
          exact List.mem_flatMap.2 ⟨slot, member, under⟩

end MarkerOnly

theorem declarations_behind (hooks : Code.Hooks) (declarations : List StateDeclaration)
    (writer : Writer) (text : String) :
    declarations.foldl (writeDeclaration hooks) (writer.behind text) =
      (declarations.foldl (writeDeclaration hooks) writer).behind text := by
  induction declarations generalizing writer with
  | nil => rfl
  | cons declaration declarations ih =>
      rw [List.foldl_cons, List.foldl_cons, ← ih, writeDeclaration, writeDeclaration,
        Writer.add_indented_behind, Writer.add_behind]

theorem body_behind (bindings : PageBindings) (hooks : Code.Hooks) (pageScope : Option String)
    (writer : Writer) (text : String) :
    writeBody bindings hooks pageScope (writer.behind text) =
      (writeBody bindings hooks pageScope writer).behind text := by
  unfold writeBody
  rw [declarations_behind]
  cases pageScope with
  | none =>
      dsimp only
      split
      · rfl
      · rw [Writer.add_behind]
  | some name =>
      dsimp only
      rw [Writer.add_line_behind]
      split
      · rfl
      · rw [Writer.add_behind]

theorem markup_behind (roots : List String) (writer : Writer) (text : String) :
    writeMarkup roots (writer.behind text) = (writeMarkup roots writer).behind text := by
  unfold writeMarkup
  split
  · rw [Writer.add_line_behind]
  · rw [Writer.add_line_behind, Writer.indent_behind, Writer.add_lines_behind,
      Writer.dedent_behind, Writer.add_line_behind]

/-- What stands in a module behind its imports. -/
def moduleCode (component : String) (bindings : PageBindings) (hooks : Code.Hooks)
    (pageScope : Option String) (roots : List String) : String :=
  let writer := (Writer.empty.add "\n").addLine s!"export default function {component}() \x7b"
  let writer := writeMarkup roots (writeBody bindings hooks pageScope writer.indent)
  (writer.dedent.addLine "\x7d").text

theorem raw_source_behind (plan : Plan) (document : Document) (catalog : Catalog)
    (options : CompileOptions) :
    plan.rawSource document catalog options = plan.imports.render ++
      moduleCode plan.component plan.bindings (plan.hooks options) plan.pageScope
        (plan.roots document catalog options) := by
  have start : (Writer.empty.add plan.imports.render).add "\n" =
      (Writer.empty.add "\n").behind plan.imports.render := by
    simp [Writer.add, Writer.behind, Writer.empty]
  unfold Plan.rawSource moduleCode
  rw [start]
  dsimp only
  rw [Writer.add_line_behind, Writer.indent_behind, body_behind, markup_behind,
    Writer.dedent_behind, Writer.add_line_behind]
  rfl

theorem module_code_wraps {marker : String} {nodes : Multiset String}
    {wrapped plain : List String} (fragments : WrappedFragments marker nodes wrapped plain)
    (component : String) (bindings : PageBindings) (hooks : Code.Hooks)
    (pageScope : Option String) :
    Wraps marker nodes (moduleCode component bindings hooks pageScope wrapped)
      (moduleCode component bindings hooks pageScope plain) := by
  unfold moduleCode
  dsimp only
  generalize writeBody bindings hooks pageScope _ = writer
  cases fragments with
  | nil => exact .refl _
  | cons solid other wraps rest =>
      have held := (WrappedFragments.cons solid other wraps rest).wrap
      rw [write_markup_of_ne_nil (List.cons_ne_nil _ _),
        write_markup_of_ne_nil (List.cons_ne_nil _ _)]
      have whole : Text.Whole (writer.addLine "return (").text := Text.whole_line _
      generalize writer.addLine "return (" = opened at whole ⊢
      -- What follows the markup is written at a level that does not depend on it, so it can be
      -- split off as a text of its own.
      have closed (markup : String) :
          ((((opened.indent.addLines markup).dedent.addLine ");").dedent).addLine "\x7d").text =
            opened.text ++ (Code.indentLines (opened.level + 1) markup ++
              ((((⟨"", opened.level⟩ : Writer).addLine ");").dedent).addLine "\x7d").text) := by
        have inside : (opened.indent.addLines markup).dedent = (⟨"", opened.level⟩ : Writer).behind
            (opened.text ++ Code.indentLines (opened.level + 1) markup) := by
          simp [Writer.indent, Writer.addLines, Writer.add, Writer.dedent, Writer.behind]
        rw [inside, Writer.add_line_behind, Writer.dedent_behind, Writer.add_line_behind,
          ← String.append_assoc]
        rfl
      rw [closed, closed]
      have indented := held.indented (Nat.succ_pos opened.level) (.refl
        ((((⟨"", opened.level⟩ : Writer).addLine ");").dedent).addLine "\x7d").text)
      rw [Multiset.add_zero] at indented
      exact indented.behind whole

end PageCompiler

end PageBuilder
