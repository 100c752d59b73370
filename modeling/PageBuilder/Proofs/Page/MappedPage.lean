import PageBuilder.Proofs.Page.Isolation
import PageBuilder.Proofs.Page.MapIds
import PageBuilder.Proofs.Page.RuntimeNames

/-!
A page of a document and the same page under other identifiers. Its view, its imports and what it
shows differ in identifiers only, so the modules have the same text around the declarations of the
state, and these agree one by one; which of them comes first is told by the identifiers.
-/

namespace PageBuilder

namespace PageView

namespace ControlledSlot

def mapIds (change : NodeId → NodeId) (slot : ControlledSlot) : ControlledSlot :=
  { slot with element := slot.element.mapIds change }

theorem value_map_ids (change : NodeId → NodeId) (slot : ControlledSlot) :
    (slot.mapIds change).value? = slot.value?.map (Bindable.mapIds change) := by
  have kind : (slot.mapIds change).element.kind = slot.element.kind.mapIds change := rfl
  have prop : (slot.mapIds change).prop = slot.prop := rfl
  rw [value?, kind, prop, NodeKind.props_map_ids, value?, Option.bind_map, Option.map_bind]
  congr 1
  funext props
  exact SortedMap.get_map_values _ _ _

theorem entry_map_ids {change : NodeId → NodeId} (injective : Function.Injective change)
    {document : Document} {inside : List NodeId} (keys : List StateKey) (slot : ControlledSlot) :
    (slot.mapIds change).entry (document.mapIds change) (inside.map change)
        (keys.map (StateKey.mapIds change)) =
      (slot.entry document inside keys).mapIds change := by
  have key : (slot.mapIds change).key = slot.key.mapIds change := rfl
  have targets (key : StateKey) :
      (isPair (key.mapIds change) && (keys.map (StateKey.mapIds change)).contains
          (key.mapIds change) && decide (key.mapIds change ≠ slot.key.mapIds change)) =
        (isPair key && keys.contains key && decide (key ≠ slot.key)) := by
    have own := StateKey.map_ids_injective injective
    have listed : (keys.map (StateKey.mapIds change)).contains (key.mapIds change) =
        keys.contains key := by
      rw [Bool.eq_iff_iff, List.contains_iff_mem, List.contains_iff_mem,
        List.mem_map_of_injective own]
    rw [StateKey.pair_map_ids, listed]
    simp only [ne_eq, own.eq_iff]
  unfold entry
  rw [value_map_ids, key]
  cases held : slot.value? with
  | none => rfl
  | some value =>
      cases value with
      | binding node prop =>
          dsimp only [Option.map_some, Bindable.mapIds]
          rw [slot_key_map_ids injective rfl (Document.get_map_ids injective), Option.filter_map]
          have same : (fun key => isPair key && (keys.map (StateKey.mapIds change)).contains key &&
              decide (key ≠ slot.key.mapIds change)) ∘ StateKey.mapIds change =
                fun key => isPair key && keys.contains key && decide (key ≠ slot.key) :=
            funext targets
          rw [same]
          cases (slotKey? document inside node prop).filter _ with
          | none => rfl
          | some target => rfl
      | const | bound | script | secret => rfl

end ControlledSlot

end PageView

namespace Document

open PageView (ControlledSlot)

variable {change : NodeId → NodeId} (injective : Function.Injective change)
  {document : Document} {page : Node} (holds : document.HoldsPage page)

theorem page_slots_map_ids (page : Node) :
    PageView.pageSlots (page.mapIds change) =
      (PageView.pageSlots page).map (PageView.mapEntry change) := by
  have kind : (page.mapIds change).kind = page.kind.mapIds change := rfl
  rw [PageView.pageSlots, PageView.pageSlots, kind, NodeKind.state_map_ids]
  cases page.kind.state? with
  | none => rfl
  | some state =>
      dsimp only
      rw [List.map_map]
      rfl

include injective holds

theorem HoldsPage.map_ids : (document.mapIds change).HoldsPage (page.mapIds change) where
  valid := holds.valid.map_ids injective
  found := by
    have there : (document.mapIds change).get? (change page.id) = _ := get_map_ids injective page.id
    rw [holds.found] at there
    exact there
  type := (page.type_map_ids change).trans holds.type

theorem state_nodes_map_ids :
    PageView.stateNodes (document.mapIds change) (page.mapIds change) =
      (PageView.stateNodes document page).map (PageView.mapEntry change) := by
  have id : (page.mapIds change).id = change page.id := rfl
  have types : (fun node : Node => node.type.isPageState) ∘ Node.mapIds change =
      fun node => node.type.isPageState := by
    funext node
    rw [Function.comp_apply, Node.type_map_ids]
  rw [PageView.stateNodes, PageView.stateNodes, id, children_map_ids injective holds.valid,
    List.filter_map, types, List.map_map, List.map_map]
  rfl

theorem controlled_slots_map_ids (schema : PropSchema) :
    PageView.controlledSlots (document.mapIds change) (page.mapIds change) schema =
      (PageView.controlledSlots document page schema).map (ControlledSlot.mapIds change) := by
  have id : (page.mapIds change).id = change page.id := rfl
  rw [PageView.controlledSlots, PageView.controlledSlots, id,
    markup_elements_map_ids injective holds.valid, List.flatMap_map, List.map_flatMap]
  apply List.flatMap_congr
  intro element _
  rw [PageView.known_component_map_ids]
  cases PageView.knownComponent? schema element with
  | none => rfl
  | some component =>
      dsimp only
      rw [List.map_map]
      rfl

theorem mapped_view (schema : PropSchema) : PageView.Mapped change
    (PageView.of document page schema)
    (PageView.of (document.mapIds change) (page.mapIds change) schema) where
  injective := injective
  schema := rfl
  entries := by
    have plain : PageView.pageSlots (page.mapIds change) ++
        PageView.stateNodes (document.mapIds change) (page.mapIds change) =
          (PageView.pageSlots page ++ PageView.stateNodes document page).map
            (PageView.mapEntry change) := by
      rw [page_slots_map_ids, state_nodes_map_ids injective holds, List.map_append]
    have keys (plain : List (StateKey × StateEntry)) (slots : List ControlledSlot) :
        (plain.map (PageView.mapEntry change)).map Prod.fst ++
            (slots.map (ControlledSlot.mapIds change)).map ControlledSlot.key =
          (plain.map Prod.fst ++ slots.map ControlledSlot.key).map (StateKey.mapIds change) := by
      rw [List.map_append, List.map_map, List.map_map, List.map_map, List.map_map]
      rfl
    rw [PageView.of, PageView.of]
    dsimp only
    rw [plain, controlled_slots_map_ids injective holds, keys,
      nodes_inside_map_ids injective holds.valid]
    generalize PageView.pageSlots page ++ PageView.stateNodes document page = entries
    generalize entries.map Prod.fst ++ _ = keys
    rw [List.map_append, List.map_map, List.map_map]
    congr 1
    apply List.map_congr_left
    intro slot _
    exact congrArg (Prod.mk _) (slot.entry_map_ids injective _)
  markup := markup_elements_map_ids injective holds.valid page.id
  inside := nodes_inside_map_ids injective holds.valid page
  get := get_map_ids injective
  named := node_named_map_ids injective
  owned key member := by
    obtain ⟨node, found, _⟩ := ((mem_keys_iff holds).1 member).suits holds
    exact ⟨node, found⟩

end Document

/-- What two pieces of state one piece reads comes in the same order, or all state stands after what
it reads. -/
def PageView.Settled (change : NodeId → NodeId) (view : PageView) : Prop :=
  ReadGraph.KeepsOrder (StateKey.mapIds change) view.steps ∨ ReadGraph.ReadsEarlier view.steps

structure PageBindings.Mapped (change : NodeId → NodeId) (paired : NodeId → NodeId → Prop)
    (settled : Prop) (left right : PageBindings) : Prop where
  props : ∀ id, right.props.get? (change id) = left.props.get? id
  runtimeScope : right.runtimeScope = left.runtimeScope
  usesRuntime : right.usesRuntime = left.usesRuntime
  scope : right.scope = left.scope
  declarations : ∃ others, List.Forall₂ (StateDeclaration.UpTo paired) left.declarations others ∧
    right.declarations.Perm others
  ordered : settled →
    List.Forall₂ (StateDeclaration.UpTo paired) left.declarations right.declarations

namespace PageView.Mapped

variable {change : NodeId → NodeId} {left right : PageView} (mapped : Mapped change left right)
  {paired : NodeId → NodeId → Prop} (pairs : PairsQueries change paired left)

include mapped

theorem graph_eq :
    right.graph = ReadGraph.build (left.steps.map (GraphStep.map (StateKey.mapIds change))) := by
  rw [graph_eq_build, mapped.steps_eq]

theorem order_fails_iff :
    (∃ cycle, right.graph.order = .error cycle) ↔ ∃ cycle, left.graph.order = .error cycle := by
  rw [mapped.graph_eq, graph_eq_build left, ReadGraph.order_fails_map_iff mapped.keys_injective]

theorem order_map {order : List StateKey} (ended : left.graph.order = .ok order) :
    ∃ other, right.graph.order = .ok other ∧
      other.Perm (order.map (StateKey.mapIds change)) ∧
      (left.Settled change → other = order.map (StateKey.mapIds change)) := by
  cases again : right.graph.order with
  | error cycle =>
      obtain ⟨failure, failed⟩ := mapped.order_fails_iff.1 ⟨cycle, again⟩
      rw [ended] at failed
      cases failed
  | ok other =>
      rw [graph_eq_build] at ended
      rw [mapped.graph_eq] at again
      refine ⟨other, rfl, ReadGraph.orders_map_perm mapped.keys_injective ended again, ?_⟩
      intro settled
      have same := ReadGraph.order_build_map mapped.keys_injective settled
      rw [ended, again] at same
      exact Except.ok.inj same

include pairs

theorem bindings {scope : Scope} {bindings : PageBindings}
    (bound : left.bindings scope = .ok bindings) :
    ∃ renamed, right.bindings scope = .ok renamed ∧
      bindings.Mapped change paired (left.Settled change) renamed := by
  rw [PageView.bindings] at bound
  cases ended : left.graph.order with
  | error cycle =>
      rw [ended] at bound
      cases bound
  | ok order =>
      rw [ended] at bound
      cases bound
      obtain ⟨other, again, perm, same⟩ := mapped.order_map ended
      rw [PageView.bindings, again]
      dsimp only
      rw [mapped.names_eq scope]
      refine ⟨_, rfl, mapped.props_eq _, mapped.runtime_scope_eq _, mapped.uses_runtime_eq, rfl,
        ⟨_, mapped.declarations_up_to _ pairs order, perm.filterMap _⟩, ?_⟩
      intro settled
      rw [same settled]
      exact mapped.declarations_up_to _ pairs order

end PageView.Mapped

namespace PageCompiler

open Code (SameButIds Writer)

variable {change : NodeId → NodeId} {document : Document} {page : Node} {catalog : Catalog}
  {options : CompileOptions}

theorem definition_map_ids (element : Node) :
    definition? catalog (element.mapIds change) = definition? catalog element := by
  rw [definition?, definition?, Node.component_map_ids]

theorem runtime_prop_map_ids (element : Node) :
    hasRuntimeProp catalog (element.mapIds change) = hasRuntimeProp catalog element := by
  rw [hasRuntimeProp, hasRuntimeProp, PageView.given_props_map_ids, List.any_map,
    Node.component_map_ids]
  congr 1
  funext entry
  rcases entry with ⟨name, value⟩
  cases value <;> rfl

theorem import_table_map_ids (injective : Function.Injective change)
    (holds : document.HoldsPage page) (catalog : Catalog) (options : CompileOptions) :
    importTable (document.mapIds change) (change page.id) catalog options =
      importTable document page.id catalog options := by
  have states : pageStateTypes (document.mapIds change) (change page.id) =
      pageStateTypes document page.id := by
    rw [pageStateTypes, pageStateTypes, Document.children_map_ids injective holds.valid,
      List.map_map]
    congr 1
    exact List.map_congr_left fun node _ => node.type_map_ids change
  have elements := Document.markup_elements_map_ids injective holds.valid page.id
  have known : ((document.markupElements page.id).map (Node.mapIds change)).filter
      (fun element => (definition? catalog element).isSome) =
        ((document.markupElements page.id).filter fun element =>
          (definition? catalog element).isSome).map (Node.mapIds change) := by
    rw [List.filter_map]
    congr 1
    apply List.filter_congr
    intro element _
    rw [Function.comp_apply, definition_map_ids]
  have names : runtimeNames (document.mapIds change) (change page.id) catalog options =
      runtimeNames document page.id catalog options := by
    have runs : hasRuntimeProp catalog ∘ Node.mapIds change = hasRuntimeProp catalog :=
      funext runtime_prop_map_ids
    rw [runtimeNames, runtimeNames, states, elements, known, List.any_map, runs, List.isEmpty_map]
  have component (table : ImportTable) (element : Node) :
      importComponent catalog table (element.mapIds change) =
        importComponent catalog table element := by
    rw [importComponent, importComponent, definition_map_ids]
  rw [importTable, importTable, names, elements]
  simp only [List.foldl_map, component]

structure MarkupContext.Mapped (change : NodeId → NodeId) (left right : MarkupContext) : Prop where
  document : right.document = left.document.mapIds change
  props : ∀ id, right.bindings.props.get? (change id) = left.bindings.props.get? id
  catalog : right.catalog = left.catalog
  imports : right.imports = left.imports
  react : right.react = left.react
  evaluate : right.evaluate = left.evaluate
  pageScope : right.pageScope = left.pageScope
  bare : left.marker = none ∧ right.marker = none

theorem element_tag_map_ids {left right : MarkupContext} (mapped : left.Mapped change right)
    (element : Node) (slots : SortedMap (List String)) :
    elementTag right (element.mapIds change) slots = elementTag left element slots := by
  have given : propAttributes right = propAttributes left := by
    funext definition props entry
    unfold propAttributes evaluation
    rw [mapped.evaluate, mapped.pageScope]
  have same (definition : ComponentDefinition) :
      attributes right definition (element.mapIds change) = attributes left definition element := by
    have props : right.bindings.props.get? (element.mapIds change).id =
        left.bindings.props.get? element.id := mapped.props element.id
    unfold attributes
    rw [props, given]
  have found : right.catalog.find? ((element.mapIds change).component?.getD "") =
      left.catalog.find? (element.component?.getD "") := by
    rw [mapped.catalog, Node.component_map_ids]
  cases known : left.catalog.find? (element.component?.getD "") with
  | some definition =>
      rw [element_tag_known known, element_tag_known (found.trans known), mapped.imports, same]
  | none => rw [element_tag_unknown known, element_tag_unknown (found.trans known), mapped.react]

theorem render_elements_map_ids (injective : Function.Injective change)
    {left right : MarkupContext} (valid : left.document.Valid)
    (mapped : left.Mapped change right) (depth : Nat) (nodes : List Node) :
    renderElements right depth (nodes.map (Node.mapIds change)) =
      renderElements left depth nodes := by
  induction depth generalizing nodes with
  | zero => rfl
  | succ depth ih =>
      have elements : (nodes.map (Node.mapIds change)).filter isElement =
          (nodes.filter isElement).map (Node.mapIds change) := by
        rw [List.filter_map]
        congr 1
        apply List.filter_congr
        intro node _
        rw [Function.comp_apply, isElement, isElement, Node.type_map_ids]
      rw [renderElements, renderElements, elements, List.map_map]
      apply List.map_congr_left
      intro element _
      have slots : (right.document.childSlots (element.mapIds change).id).map (fun slot =>
          (slot.1, renderElements right depth slot.2)) =
            (left.document.childSlots element.id).map fun slot =>
              (slot.1, renderElements left depth slot.2) := by
        have below := Document.child_slots_map_ids injective valid element.id
        rw [mapped.document]
        change ((left.document.mapIds change).childSlots (change element.id)).map _ = _
        rw [below, List.map_map]
        apply List.map_congr_left
        intro slot _
        exact congrArg (Prod.mk slot.1) (ih slot.2)
      rw [Function.comp_apply]
      dsimp only
      rw [slots, element_tag_map_ids mapped, marked, marked, mapped.bare.1, mapped.bare.2]

def statement (hooks : Code.Hooks) (declaration : StateDeclaration) : String :=
  "  " ++ Code.declaration hooks declaration.names declaration.source ++ "\n"

theorem statement_same {paired : NodeId → NodeId → Prop} (hooks : Code.Hooks)
    {declaration other : StateDeclaration} (upTo : declaration.UpTo paired other) :
    SameButIds hooks.useDataQuery paired (statement hooks declaration) (statement hooks other) :=
  ((SameButIds.refl _).append (Code.declaration_same hooks upTo)).append (.refl _)

def Plan.statements (plan : Plan) (options : CompileOptions) : List String :=
  plan.bindings.declarations.map (statement (plan.hooks options))

/-- A module up to the declarations of its state. -/
def Plan.front (plan : Plan) : String :=
  plan.imports.render ++ "\n" ++ s!"export default function {plan.component}() \x7b\n"

/-- A module from the end of the declarations on. -/
def Plan.back (plan : Plan) (document : Document) (catalog : Catalog)
    (options : CompileOptions) : String :=
  let writer : Writer := ⟨"", 1⟩
  let writer := match plan.pageScope with
    | some name => writer.addLine s!"const {name} = {scopeLiteral plan.bindings.runtimeScope};"
    | none => writer
  let writer :=
    if plan.bindings.declarations.isEmpty && plan.pageScope.isNone then writer
    else writer.add "\n"
  ((writeMarkup (plan.roots document catalog options) writer).dedent.addLine "\x7d").text

theorem declarations_written (hooks : Code.Hooks) (declarations : List StateDeclaration)
    (text : String) : declarations.foldl (writeDeclaration hooks) ⟨text, 1⟩ =
      (⟨"", 1⟩ : Writer).behind (text ++ String.join (declarations.map (statement hooks))) := by
  induction declarations generalizing text with
  | nil => simp [Writer.behind]
  | cons declaration declarations ih =>
      have first : writeDeclaration hooks ⟨text, 1⟩ declaration =
          ⟨text ++ statement hooks declaration, 1⟩ := by
        simp only [writeDeclaration, Writer.addIndented, Writer.add, statement,
          String.append_assoc]
        rfl
      rw [List.foldl_cons, first, ih, List.map_cons, String.join_cons, String.append_assoc]

theorem raw_source_parts (plan : Plan) (document : Document) (catalog : Catalog)
    (options : CompileOptions) :
    plan.rawSource document catalog options =
      plan.front ++ String.join (plan.statements options) ++
        plan.back document catalog options := by
  have opened : (((Writer.empty.add plan.imports.render).add "\n").addLine
      s!"export default function {plan.component}() \x7b").indent = ⟨plan.front, 1⟩ := by
    have flush : String.ofList (Code.indentation 0) = "" := rfl
    simp only [Writer.addLine, Writer.addIndented, Writer.add, Writer.indent, Writer.empty, flush]
    simp [Plan.front, ToString.toString, String.append_assoc]
  have spaced (bare : Bool) (writer : Writer) (text : String) :
      (if bare then writer.behind text else (writer.behind text).add "\n") =
        (if bare then writer else writer.add "\n").behind text := by
    split
    · rfl
    · exact Writer.add_behind _ _ _
  have closed (writer : Writer) (text : String) :
      ((writeMarkup (plan.roots document catalog options) (writer.behind text)).dedent.addLine
          "\x7d").text =
        text ++ ((writeMarkup (plan.roots document catalog options) writer).dedent.addLine
          "\x7d").text := by
    rw [markup_behind, Writer.dedent_behind, Writer.add_line_behind]
    rfl
  unfold Plan.rawSource Plan.back writeBody
  dsimp only
  rw [opened, declarations_written, ← Plan.statements]
  cases plan.pageScope with
  | none =>
      dsimp only
      rw [spaced, closed]
  | some name =>
      dsimp only
      rw [Writer.add_line_behind, spaced, closed]

structure Plan.Mapped (change : NodeId → NodeId) (paired : NodeId → NodeId → Prop)
    (settled : Prop) (left right : Plan) : Prop where
  page : right.page = left.page.mapIds change
  imports : right.imports = left.imports
  component : right.component = left.component
  pageScope : right.pageScope = left.pageScope
  bindings : left.bindings.Mapped change paired settled right.bindings

theorem plan_map_ids (injective : Function.Injective change) (holds : document.HoldsPage page)
    {paired : NodeId → NodeId → Prop}
    (pairs : PageView.PairsQueries change paired (PageView.of document page catalog.schema))
    {plan : Plan} (planned : PageCompiler.plan document page catalog options = .ok plan) :
    ∃ renamed, PageCompiler.plan (document.mapIds change) (page.mapIds change) catalog options =
        .ok renamed ∧
      plan.Mapped change paired
        (PageView.Settled change (PageView.of document page catalog.schema)) renamed := by
  obtain ⟨table, imports⟩ := import_table_ok document page.id catalog options
  have further : importTable (document.mapIds change) (page.mapIds change).id catalog options =
      .ok table := (import_table_map_ids injective holds catalog options).trans imports
  have there := holds.map_ids injective
  rw [Document.plan_eq imports] at planned
  obtain ⟨bindings, bound, same⟩ := Outcome.bind_eq_ok.1 planned
  have bound := Outcome.map_error_eq_ok.1 bound
  rw [Document.bindings, Document.node_of_type_ok.2 ⟨holds.found, holds.type⟩] at bound
  obtain ⟨renamed, again, mapped⟩ :=
    (Document.mapped_view injective holds catalog.schema).bindings pairs bound
  have resolved : (document.mapIds change).bindings (page.mapIds change).id catalog.schema
      (Document.declared table page).2.scope.below = .ok renamed := by
    rw [Document.bindings, Document.node_of_type_ok.2 ⟨there.found, there.type⟩]
    exact again
  have named : Document.declared table (page.mapIds change) = Document.declared table page := rfl
  rw [Document.plan_eq further, named, resolved,
    Outcome.map_error_ok]
  cases same
  refine ⟨_, rfl, rfl, rfl, rfl, ?_, mapped⟩
  dsimp only
  rw [mapped.usesRuntime, mapped.scope]

namespace Plan.Mapped

variable {paired : NodeId → NodeId → Prop} {settled : Prop} {left right : Plan}
  (mapped : left.Mapped change paired settled right)

include mapped

theorem hooks_eq (options : CompileOptions) : right.hooks options = left.hooks options := by
  rw [Plan.hooks, Plan.hooks, mapped.imports]

theorem front_eq : right.front = left.front := by
  rw [Plan.front, Plan.front, mapped.imports, mapped.component]

theorem roots_eq (injective : Function.Injective change) (valid : document.Valid)
    (bare : options.editorMode = false) :
    right.roots (document.mapIds change) catalog options = left.roots document catalog options := by
  have contexts : (left.context document catalog options).Mapped change
      (right.context (document.mapIds change) catalog options) := by
    have hooks := mapped.hooks_eq options
    refine ⟨rfl, mapped.bindings.props, rfl, mapped.imports, congrArg Code.Hooks.react hooks, ?_,
      ?_, ?_⟩
    · rw [Plan.context, Plan.context, mapped.imports]
    · rw [Plan.context, Plan.context, mapped.pageScope]
    · rw [Plan.context, Plan.context, bare]
      exact ⟨rfl, rfl⟩
  have top := Document.children_in_map_ids injective valid left.page.id childrenSlot
  have own : right.page.id = change left.page.id := congrArg Node.id mapped.page
  rw [Plan.roots, Plan.roots, own, top, Document.size_map_ids injective valid,
    render_elements_map_ids injective valid contexts]

theorem back_eq (injective : Function.Injective change) (valid : document.Valid)
    (bare : options.editorMode = false) :
    right.back (document.mapIds change) catalog options = left.back document catalog options := by
  obtain ⟨others, same, perm⟩ := mapped.bindings.declarations
  have lengths : right.bindings.declarations.length = left.bindings.declarations.length :=
    perm.length_eq.trans same.length_eq.symm
  have empty : right.bindings.declarations.isEmpty = left.bindings.declarations.isEmpty := by
    rw [Bool.eq_iff_iff, List.isEmpty_iff, List.isEmpty_iff, ← List.length_eq_zero_iff, lengths,
      List.length_eq_zero_iff]
  unfold Plan.back
  rw [mapped.pageScope, mapped.bindings.runtimeScope, empty, mapped.roots_eq injective valid bare]

theorem statements_same (options : CompileOptions) : ∃ others,
    List.Forall₂ (SameButIds (left.hooks options).useDataQuery paired)
        (left.statements options) others ∧
      (right.statements options).Perm others := by
  obtain ⟨others, same, perm⟩ := mapped.bindings.declarations
  rw [Plan.statements, Plan.statements, mapped.hooks_eq]
  refine ⟨_, List.forall₂_map_right_iff.2 (List.forall₂_map_left_iff.2 ?_), perm.map _⟩
  exact same.imp fun _ _ upTo => statement_same _ upTo

theorem statements_ordered (kept : settled) :
    List.Forall₂ (SameButIds (left.hooks options).useDataQuery paired)
      (left.statements options) (right.statements options) := by
  rw [Plan.statements, Plan.statements, mapped.hooks_eq]
  refine List.forall₂_map_right_iff.2 (List.forall₂_map_left_iff.2 ?_)
  exact (mapped.bindings.ordered kept).imp fun _ _ upTo => statement_same _ upTo

end Plan.Mapped

end PageCompiler

end PageBuilder
