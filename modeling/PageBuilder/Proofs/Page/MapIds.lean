import PageBuilder.Proofs.Code.QueryIds
import PageBuilder.Proofs.Document.MapIds
import PageBuilder.Proofs.Page.Order
import PageBuilder.Proofs.ReadGraph.MapKeys

/-!
Views of one page under two sets of identifiers. What is resolved through the views is the same code
with the same names, and the state of the one is that of the other under other keys.
-/

namespace PageBuilder

namespace StateKey

def mapIds (change : NodeId → NodeId) : StateKey → StateKey
  | .pageSlot page slot => .pageSlot (change page) slot
  | .node id => .node (change id)
  | .prop element name => .prop (change element) name

variable {change : NodeId → NodeId}

theorem map_ids_injective (injective : Function.Injective change) :
    Function.Injective (mapIds change) := by
  intro left right same
  cases left
  all_goals cases right
  all_goals simp_all [mapIds, injective.eq_iff]

theorem owner_map_ids (key : StateKey) : (key.mapIds change).owner = change key.owner := by
  cases key <;> rfl

theorem second_map_ids (key : StateKey) : (key.mapIds change).second = key.second := by
  cases key <;> rfl

theorem pair_map_ids (key : StateKey) :
    PageView.isPair (key.mapIds change) = PageView.isPair key := by
  cases key <;> rfl

instance : Std.TransOrd StateKey :=
  inferInstanceAs (Std.TransCmp (compareLex (compareOn rank)
    (compareLex (compareOn first) (compareOn second))))

end StateKey

def StateEntry.mapIds (change : NodeId → NodeId) : StateEntry → StateEntry
  | .pageSlot default => .pageSlot default
  | .node state => .node (state.mapIds change)
  | .owned element component prop value =>
      .owned (element.mapIds change) component prop (value.map (Bindable.mapIds change))
  | .computed element prop value =>
      .computed (element.mapIds change) prop (value.mapIds change)
  | .shared target => .shared (target.mapIds change)

def PageNames.mapIds (change : NodeId → NodeId) (names : PageNames) : PageNames :=
  ⟨names.scope, names.given.map fun entry => (entry.1.mapIds change, entry.2)⟩

namespace PageView

def apiText (change : NodeId → NodeId) (node : Node) : NodeId :=
  ((node.attributeText? apiAttribute).map change).getD ""

/-- What the queries of a page are told by, before and after. -/
def PairsQueries (change : NodeId → NodeId) (paired : NodeId → NodeId → Prop)
    (view : PageView) : Prop :=
  ∀ key node, (key, .node node) ∈ view.entries → node.type = .queryState →
    paired (apiText id node) (apiText change node) ∧ paired node.id (change node.id)

def mapEntry (change : NodeId → NodeId) (entry : StateKey × StateEntry) : StateKey × StateEntry :=
  (entry.1.mapIds change, entry.2.mapIds change)

def steps (view : PageView) : List (GraphStep StateKey) :=
  view.entries.flatMap fun entry =>
    .node entry.1 :: (view.entryReads entry.2).map (GraphStep.read entry.1)

theorem graph_eq_build (view : PageView) : view.graph = ReadGraph.build view.steps := by
  rw [graph, steps, ReadGraph.build, List.foldl_flatMap]
  congr 1
  funext graph entry
  rw [List.foldl_cons, List.foldl_map]
  rfl

theorem params_of_map_ids (change : NodeId → NodeId) (node : Node) :
    paramsOf (node.mapIds change) =
      (paramsOf node).map fun param => (param.1, param.2.mapIds change) := by
  have kind : (node.mapIds change).kind = node.kind.mapIds change := rfl
  rw [paramsOf, kind, NodeKind.params_map_ids, paramsOf]
  cases node.kind.params? <;> rfl

theorem given_props_map_ids (change : NodeId → NodeId) (element : Node) :
    givenProps (element.mapIds change) =
      (givenProps element).map fun entry => (entry.1, entry.2.mapIds change) := by
  have kind : (element.mapIds change).kind = element.kind.mapIds change := rfl
  rw [givenProps, kind, NodeKind.props_map_ids, givenProps]
  cases element.kind.props? <;> rfl

theorem known_component_map_ids (change : NodeId → NodeId) (schema : PropSchema) (element : Node) :
    knownComponent? schema (element.mapIds change) = knownComponent? schema element := by
  rw [knownComponent?, knownComponent?, Node.component_map_ids]

theorem slot_key_map_ids {change : NodeId → NodeId} (injective : Function.Injective change)
    {left right : Document} {insideLeft insideRight : List NodeId}
    (inside : insideRight = insideLeft.map change)
    (get : ∀ id, right.get? (change id) = (left.get? id).map (Node.mapIds change)) (id : NodeId)
    (slot : String) :
    slotKey? right insideRight (change id) slot =
      (slotKey? left insideLeft id slot).map (StateKey.mapIds change) := by
  have within : insideRight.contains (change id) = insideLeft.contains id := by
    rw [inside, Bool.eq_iff_iff, List.contains_iff_mem, List.contains_iff_mem,
      List.mem_map_of_injective injective]
  unfold slotKey?
  rw [within, get]
  split
  · cases left.get? id with
    | none => rfl
    | some node =>
        simp only [Option.map_some, Option.bind_eq_bind, Option.bind_some, Node.type_map_ids]
        split
        · rfl
        · rfl
        · split
          · rfl
          · rfl
        · split
          · rfl
          · rfl
        · split
          · rfl
          · rfl
        · rfl
  · rfl

structure Mapped (change : NodeId → NodeId) (left right : PageView) : Prop where
  injective : Function.Injective change
  schema : right.schema = left.schema
  entries : right.entries = left.entries.map (mapEntry change)
  markup : right.markup = left.markup.map (Node.mapIds change)
  inside : right.inside = left.inside.map change
  get : ∀ id, right.document.get? (change id) = (left.document.get? id).map (Node.mapIds change)
  named : ∀ name,
    right.document.nodeNamed? name = (left.document.nodeNamed? name).map (Node.mapIds change)
  owned : ∀ key ∈ left.keys, ∃ node, left.document.get? key.owner = some node

namespace Mapped

variable {change : NodeId → NodeId} {left right : PageView} (mapped : Mapped change left right)

include mapped

theorem keys_injective : Function.Injective (StateKey.mapIds change) :=
  StateKey.map_ids_injective mapped.injective

theorem keys_eq : right.keys = left.keys.map (StateKey.mapIds change) := by
  rw [keys, keys, mapped.entries, List.map_map, List.map_map]
  rfl

theorem has_eq (key : StateKey) : right.has (key.mapIds change) = left.has key := by
  rw [has, has, mapped.keys_eq, Bool.eq_iff_iff, List.contains_iff_mem, List.contains_iff_mem,
    List.mem_map_of_injective mapped.keys_injective]

theorem entry_of_eq (key : StateKey) :
    right.entryOf? (key.mapIds change) = (left.entryOf? key).map (StateEntry.mapIds change) := by
  have same : (fun entry : StateKey × StateEntry => decide (entry.1 = key.mapIds change)) ∘
      mapEntry change = fun entry => decide (entry.1 = key) := by
    funext entry
    simp only [Function.comp_apply, mapEntry, mapped.keys_injective.eq_iff]
  rw [entryOf?, entryOf?, mapped.entries, List.find?_map, same, Option.map_map, Option.map_map]
  rfl

theorem contains_eq (id : NodeId) :
    right.inside.contains (change id) = left.inside.contains id := by
  rw [mapped.inside, Bool.eq_iff_iff, List.contains_iff_mem, List.contains_iff_mem,
    List.mem_map_of_injective mapped.injective]

theorem target_eq (id : NodeId) (slot : String) :
    right.target? (change id) slot = (left.target? id slot).map (StateKey.mapIds change) := by
  rw [target?, target?, slot_key_map_ids mapped.injective mapped.inside mapped.get,
    Option.filter_map]
  congr 2
  funext key
  exact mapped.has_eq key

theorem path_from_eq (node : Node) (segments : List PathSegment) :
    right.pathFrom? (node.mapIds change) segments =
      (left.pathFrom? node segments).map fun found => (found.1.mapIds change, found.2) := by
  have slots : right.slotOn? (change node.id) segments =
      (left.slotOn? node.id segments).map fun found => (found.1.mapIds change, found.2) := by
    unfold slotOn?
    split
    · rw [mapped.target_eq, Option.map_map, Option.map_map]
      rfl
    · rfl
  unfold pathFrom?
  rw [Node.type_map_ids]
  split
  · rfl
  · rfl
  · rfl
  · exact slots
  · exact slots
  · rfl

theorem reference_eq (reference : Reference) :
    right.referenceTarget? reference =
      (left.referenceTarget? reference).map fun found => (found.1.mapIds change, found.2) := by
  rw [reference_target_eq, reference_target_eq, mapped.named, Option.bind_map, Option.map_bind]
  congr 1
  funext node
  have within : right.inside.contains (node.mapIds change).id = left.inside.contains node.id :=
    mapped.contains_eq node.id
  rw [Function.comp_apply, Function.comp_apply, within, mapped.path_from_eq]
  split
  · rfl
  · rfl

theorem value_reads_eq (value : Bindable) :
    right.valueReads (value.mapIds change) =
      (left.valueReads value).map (StateKey.mapIds change) := by
  cases value with
  | binding node slot =>
      rw [Bindable.mapIds, valueReads, valueReads, mapped.target_eq]
      cases left.target? node slot <;> rfl
  | bound text format =>
      have same : Bindable.mapIds change (.bound text format) = .bound text format := rfl
      rw [same, valueReads, valueReads, List.map_filterMap]
      congr 1
      funext reference
      rw [mapped.reference_eq, Option.map_map, Option.map_map]
      rfl
  | const value | script text | secret reference => rfl

theorem entry_reads_eq (entry : StateEntry) :
    right.entryReads (entry.mapIds change) =
      (left.entryReads entry).map (StateKey.mapIds change) := by
  cases entry with
  | node node =>
      rw [StateEntry.mapIds, entryReads, entryReads, params_of_map_ids, List.flatMap_map,
        List.map_flatMap]
      simp only [mapped.value_reads_eq]
  | computed element prop value =>
      rw [StateEntry.mapIds, entryReads, entryReads, mapped.value_reads_eq]
  | pageSlot | owned | shared => rfl

theorem steps_eq : right.steps = left.steps.map (GraphStep.map (StateKey.mapIds change)) := by
  rw [steps, steps, mapped.entries, List.flatMap_map, List.map_flatMap]
  congr 1
  funext entry
  rw [mapEntry, mapped.entry_reads_eq, List.map_cons, List.map_map, List.map_map]
  rfl

theorem owner_within_eq (count : Nat) (key : StateKey) :
    right.ownerWithin? count (key.mapIds change) =
      (left.ownerWithin? count key).map (StateKey.mapIds change) := by
  induction count generalizing key with
  | zero => rfl
  | succ count ih =>
      unfold ownerWithin?
      rw [mapped.entry_of_eq]
      cases left.entryOf? key with
      | none => rfl
      | some entry =>
          cases entry with
          | shared target => exact ih target
          | pageSlot | node | owned | computed => rfl

theorem owner_eq (key : StateKey) :
    right.owner? (key.mapIds change) = (left.owner? key).map (StateKey.mapIds change) := by
  rw [owner?, owner?, mapped.entries, List.length_map, mapped.owner_within_eq]

theorem label_of_owner {key : StateKey} (member : key ∈ left.keys) :
    right.document.labelOf (change key.owner) = left.document.labelOf key.owner := by
  obtain ⟨node, found⟩ := mapped.owned key member
  rw [Document.labelOf, Document.labelOf, mapped.get, found]
  rfl

theorem label_eq {key : StateKey} (member : key ∈ left.keys) :
    right.label (key.mapIds change) = left.label key := by
  have owner := mapped.label_of_owner member
  cases key with
  | pageSlot page slot => exact congrArg (fun label => s!"{label}.{slot}") owner
  | node id => exact owner
  | prop element prop => exact congrArg (fun label => s!"{label}.{prop}") owner

omit mapped in
theorem wish_eq (key : StateKey) (entry : StateEntry) :
    PageNames.wish (key.mapIds change) (entry.mapIds change) = PageNames.wish key entry := by
  cases entry with
  | pageSlot default =>
      rw [StateEntry.mapIds, PageNames.wish, PageNames.wish, StateKey.second_map_ids]
  | node | owned | computed | shared => rfl

theorem find_eq (names : PageNames) (key : StateKey) :
    (names.mapIds change).find? (key.mapIds change) = names.find? key := by
  have same : (fun entry : StateKey × StateNames => decide (entry.1 = key.mapIds change)) ∘
      (fun entry : StateKey × StateNames => (entry.1.mapIds change, entry.2)) =
        fun entry => decide (entry.1 = key) := by
    funext entry
    simp only [Function.comp_apply, mapped.keys_injective.eq_iff]
  rw [PageNames.find?, PageNames.mapIds, List.find?_map, same, Option.map_map, PageNames.find?]
  rfl

theorem use_eq (names : PageNames) (key : StateKey) :
    PageNames.use right (names.mapIds change) (key.mapIds change) =
      (PageNames.use left names key).mapIds change := by
  unfold PageNames.use
  rw [mapped.owner_eq]
  cases left.owner? key with
  | none => rfl
  | some owner =>
      have wished : (right.entryOf? (owner.mapIds change)).bind
          (PageNames.wish (owner.mapIds change)) = (left.entryOf? owner).bind
            (PageNames.wish owner) := by
        rw [mapped.entry_of_eq, Option.bind_map]
        congr 1
        funext entry
        exact wish_eq owner entry
      dsimp only [Option.map_some]
      rw [mapped.find_eq, wished]
      cases names.find? owner with
      | some given => rfl
      | none =>
          cases (left.entryOf? owner).bind (PageNames.wish owner) with
          | none => rfl
          | some wish =>
              simp only [PageNames.mapIds, List.map_append, List.map_singleton]

theorem uses_eq :
    PageNames.uses right = (PageNames.uses left).map (StateKey.mapIds change) := by
  rw [PageNames.uses, PageNames.uses, mapped.entries, List.flatMap_map, List.map_flatMap]
  congr 1
  funext entry
  have reads := mapped.entry_reads_eq entry.2
  rw [mapEntry]
  cases held : entry.2 with
  | shared target => rfl
  | pageSlot | node | owned | computed =>
      rw [held] at reads
      exact congrArg (List.cons (entry.1.mapIds change)) reads

theorem names_eq (scope : Scope) :
    PageNames.ofView right scope = (PageNames.ofView left scope).mapIds change := by
  have uses (keys : List StateKey) (names : PageNames) :
      (keys.map (StateKey.mapIds change)).foldl (PageNames.use right) (names.mapIds change) =
        (keys.foldl (PageNames.use left) names).mapIds change := by
    induction keys generalizing names with
    | nil => rfl
    | cons key keys ih => rw [List.map_cons, List.foldl_cons, List.foldl_cons, mapped.use_eq, ih]
  rw [PageNames.ofView, PageNames.ofView, mapped.uses_eq]
  exact uses _ ⟨scope, []⟩

theorem names_of_eq (names : PageNames) (key : StateKey) :
    (names.mapIds change).of right (key.mapIds change) = names.of left key := by
  rw [PageNames.of, PageNames.of, mapped.owner_eq, Option.bind_map]
  congr 2
  funext owner
  exact mapped.find_eq names owner

theorem values_of_eq (names : PageNames) (keys : List StateKey) :
    (names.mapIds change).valuesOf right (keys.map (StateKey.mapIds change)) =
      names.valuesOf left keys := by
  unfold PageNames.valuesOf
  rw [List.map_map]
  congr 3
  funext key
  rw [Function.comp_apply, mapped.names_of_eq]

section Values

variable (names : PageNames)

theorem part_code_eq (format : BoundFormat) (part : TemplatePart) :
    right.partCode (names.mapIds change) format part = left.partCode names format part := by
  cases part with
  | interpolation reference =>
      rw [partCode, partCode, referenceCode, referenceCode, mapped.reference_eq]
      cases left.referenceTarget? reference with
      | none => rfl
      | some found =>
          dsimp only [Option.map_some]
          rw [mapped.names_of_eq]
  | text chars | invalid written fault => rfl

theorem value_code_eq (value : Bindable) :
    right.valueCode (names.mapIds change) (value.mapIds change) = left.valueCode names value := by
  cases value with
  | binding node slot =>
      rw [Bindable.mapIds, valueCode, valueCode, mapped.target_eq]
      cases left.target? node slot with
      | none => rfl
      | some key =>
          dsimp only [Option.map_some]
          rw [mapped.names_of_eq]
  | bound text format =>
      have parts : right.partCode (names.mapIds change) = left.partCode names := by
        funext format part
        exact mapped.part_code_eq names format part
      have same : Bindable.mapIds change (.bound text format) = .bound text format := rfl
      rw [same, valueCode, valueCode, templateCode, templateCode, parts]
  | const value | script text | secret reference => rfl

theorem value_prop_eq (value : Bindable) :
    right.valueProp (names.mapIds change) (value.mapIds change) = left.valueProp names value := by
  have code := mapped.value_code_eq names value
  cases value with
  | script text => rfl
  | const | binding | bound | secret => exact congrArg ResolvedProp.code code

theorem param_codes_eq (node : Node) :
    right.paramCodes (names.mapIds change) (node.mapIds change) = left.paramCodes names node := by
  rw [paramCodes, paramCodes, params_of_map_ids, List.map_map]
  apply List.map_congr_left
  intro param _
  exact congrArg (Prod.mk param.1) (mapped.value_code_eq names param.2)

theorem initial_value_eq (component prop : String) (value : Option Bindable) :
    right.initialValue component prop (value.map (Bindable.mapIds change)) =
      left.initialValue component prop value := by
  have schema := mapped.schema
  cases value with
  | none =>
      rw [Option.map_none, initialValue, initialValue, schema]
      all_goals simp
  | some value =>
      cases value with
      | const | script | secret => rfl
      | binding node slot =>
          change (right.schema.default? component prop).map Json.text = _
          rw [schema]
          rfl
      | bound text format =>
          change (right.schema.default? component prop).map Json.text = _
          rw [schema]
          rfl

theorem controlled_prop_eq (key : StateKey) :
    right.controlledProp (names.mapIds change) (key.mapIds change) =
      left.controlledProp names key := by
  rw [controlledProp, controlledProp, mapped.names_of_eq]

theorem given_prop_eq (element : Node) (entry : String × Bindable) :
    right.givenProp (names.mapIds change) (element.mapIds change)
        (entry.1, entry.2.mapIds change) = left.givenProp names element entry := by
  have key : StateKey.prop (element.mapIds change).id entry.1 =
      (StateKey.prop element.id entry.1).mapIds change := rfl
  rw [givenProp, givenProp]
  dsimp only
  rw [key, mapped.has_eq, mapped.controlled_prop_eq, mapped.value_prop_eq]

theorem element_props_eq (element : Node) :
    right.elementProps (names.mapIds change) (element.mapIds change) =
      left.elementProps names element := by
  have given : (givenProps (element.mapIds change)).map
      (right.givenProp (names.mapIds change) (element.mapIds change)) =
        (givenProps element).map (left.givenProp names element) := by
    rw [given_props_map_ids, List.map_map]
    exact List.map_congr_left fun entry _ => mapped.given_prop_eq names element entry
  have controlled (prop : String) :
      right.controlledProp (names.mapIds change) (.prop (element.mapIds change).id prop) =
        left.controlledProp names (.prop element.id prop) :=
    mapped.controlled_prop_eq names (.prop element.id prop)
  unfold elementProps
  rw [mapped.schema, known_component_map_ids, given]
  simp only [controlled]

theorem props_eq (id : NodeId) :
    (right.props (names.mapIds change)).get? (change id) = (left.props names).get? id := by
  have entries : (right.markup.map fun element =>
      (element.id, right.elementProps (names.mapIds change) element)) =
        (left.markup.map fun element => (element.id, left.elementProps names element)).map
          fun entry => (change entry.1, entry.2) := by
    rw [mapped.markup, List.map_map, List.map_map]
    apply List.map_congr_left
    intro element _
    exact congrArg (Prod.mk (change element.id)) (mapped.element_props_eq names element)
  rw [props, props, entries, SortedMap.get_of_list_map_keys mapped.injective]

omit names in
theorem shown_values_eq :
    right.shownValues = left.shownValues.map fun shown =>
      (shown.1.mapIds change, shown.2.1, shown.2.2.mapIds change) := by
  rw [shownValues, shownValues, mapped.markup, List.flatMap_map, List.map_flatMap]
  apply List.flatMap_congr
  intro element _
  rw [mapped.schema, known_component_map_ids]
  cases knownComponent? left.schema element with
  | none => rfl
  | some component =>
      have apart : (fun entry : String × Bindable =>
          !right.has (.prop (element.mapIds change).id entry.1)) ∘
            (fun entry : String × Bindable => (entry.1, entry.2.mapIds change)) =
          fun entry => !left.has (.prop element.id entry.1) := by
        funext entry
        exact congrArg not (mapped.has_eq (.prop element.id entry.1))
      dsimp only
      rw [given_props_map_ids, List.filter_map, apart, List.map_map, List.map_map]
      rfl

omit names in
theorem uses_runtime_eq : right.usesRuntime = left.usesRuntime := by
  have scripts (value : Bindable) : isScript (value.mapIds change) = isScript value := by
    cases value <;> rfl
  rw [usesRuntime, usesRuntime, mapped.shown_values_eq, List.any_map]
  congr 1
  funext shown
  exact scripts shown.2.2

theorem direct_entries_eq :
    right.directEntries (names.mapIds change) = left.directEntries names := by
  rw [directEntries, directEntries, mapped.keys_eq, List.filterMap_map]
  apply List.filterMap_congr
  intro key member
  cases key with
  | node id =>
      exact congrArg some (congrArg₂ Prod.mk (mapped.label_eq member)
        (congrArg StateNames.value (mapped.names_of_eq names (.node id))))
  | pageSlot page slot | prop element prop => rfl

theorem group_of_eq (owner : String) :
    right.groupOf (names.mapIds change) owner = left.groupOf names owner := by
  rw [groupOf, groupOf, mapped.keys_eq, List.filterMap_map]
  congr 1
  apply List.filterMap_congr
  intro key member
  rw [Function.comp_apply, StateKey.pair_map_ids, StateKey.owner_map_ids,
    StateKey.second_map_ids, mapped.label_of_owner member, mapped.names_of_eq]

omit names in
theorem group_names_eq : right.groupNames = left.groupNames := by
  have pairs : (fun key => isPair (StateKey.mapIds change key)) = isPair := by
    funext key
    exact key.pair_map_ids
  rw [groupNames, groupNames, mapped.keys_eq, List.filter_map, List.map_map]
  change (((left.keys.filter fun key => isPair (key.mapIds change)).map _).eraseDups) = _
  rw [pairs]
  congr 1
  apply List.map_congr_left
  intro key member
  rw [Function.comp_apply, StateKey.owner_map_ids,
    mapped.label_of_owner (List.mem_filter.1 member).1]

theorem runtime_scope_eq :
    right.runtimeScope (names.mapIds change) = left.runtimeScope names := by
  have groups : right.groupEntries (names.mapIds change) = left.groupEntries names := by
    rw [groupEntries, groupEntries, mapped.group_names_eq]
    exact List.map_congr_left fun owner _ => by rw [mapped.group_of_eq]
  rw [runtimeScope, runtimeScope, mapped.direct_entries_eq, groups]

theorem source_up_to {paired : NodeId → NodeId → Prop} (pairs : PairsQueries change paired left)
    {key : StateKey} {entry : StateEntry} (member : (key, entry) ∈ left.entries) :
    Option.Rel (StateSource.UpTo paired) (left.source? names entry)
      (right.source? (names.mapIds change) (entry.mapIds change)) := by
  cases entry with
  | pageSlot value => exact .some (.same _)
  | shared target => exact .none
  | owned element component prop value =>
      rw [StateEntry.mapIds, source?, source?, mapped.initial_value_eq]
      exact .some (.same _)
  | computed element prop value =>
      rw [StateEntry.mapIds, source?, source?, mapped.value_code_eq, mapped.value_reads_eq,
        mapped.values_of_eq]
      exact .some (.same _)
  | node node =>
      have reads := mapped.entry_reads_eq (.node node)
      rw [StateEntry.mapIds] at reads
      rw [StateEntry.mapIds, source?, source?, nodeSource, nodeSource, Node.type_map_ids,
        mapped.param_codes_eq, reads, mapped.values_of_eq]
      have code := node.other_attribute_map_ids change "code" (by decide)
      cases type : node.type with
      | derivedState =>
          dsimp only
          rw [code]
          exact .some (.same _)
      | queryState =>
          have api : (node.mapIds change).attributeText? "api" =
              (node.attributeText? apiAttribute).map change := by
            rw [Node.attribute_text_map_ids, if_pos ⟨type, rfl⟩]
            rfl
          obtain ⟨apis, ids⟩ := pairs key node member type
          rw [apiText, Option.map_id] at apis
          dsimp only
          rw [api]
          exact .some (.query _ apis ids)
      | _ => exact .some (.same _)

theorem declaration_up_to {paired : NodeId → NodeId → Prop}
    (pairs : PairsQueries change paired left) (key : StateKey) :
    Option.Rel (StateDeclaration.UpTo paired) (left.declaration? names key)
      (right.declaration? (names.mapIds change) (key.mapIds change)) := by
  unfold declaration?
  rw [mapped.entry_of_eq]
  cases found : left.entryOf? key with
  | none => exact .none
  | some entry =>
      have member : (key, entry) ∈ left.entries := by
        obtain ⟨⟨held, _⟩, first, rfl⟩ := Option.map_eq_some_iff.1 found
        have same : held = key := by simpa using List.find?_some first
        rw [← same]
        exact List.mem_of_find?_eq_some first
      have sources := mapped.source_up_to names pairs member
      simp only [Option.map_some, Option.bind_eq_bind, Option.bind_some]
      generalize left.source? names entry = one at sources ⊢
      generalize right.source? (names.mapIds change) (entry.mapIds change) = other at sources ⊢
      cases sources with
      | none => exact .none
      | some source => exact .some ⟨mapped.names_of_eq names key, source⟩

theorem declarations_up_to {paired : NodeId → NodeId → Prop}
    (pairs : PairsQueries change paired left) (order : List StateKey) :
    List.Forall₂ (StateDeclaration.UpTo paired) (order.filterMap (left.declaration? names))
      ((order.map (StateKey.mapIds change)).filterMap
        (right.declaration? (names.mapIds change))) := by
  induction order with
  | nil => exact .nil
  | cons key order ih =>
      have first := mapped.declaration_up_to names pairs key
      rw [List.map_cons, List.filterMap_cons, List.filterMap_cons]
      cases one : left.declaration? names key with
      | none =>
          rw [one] at first
          cases other : right.declaration? (names.mapIds change) (key.mapIds change) with
          | none => exact ih
          | some declaration =>
              rw [other] at first
              cases first
      | some declaration =>
          rw [one] at first
          cases other : right.declaration? (names.mapIds change) (key.mapIds change) with
          | none =>
              rw [other] at first
              cases first
          | some further =>
              rw [other] at first
              cases first with
              | some same => exact .cons same ih

end Values

end Mapped

end PageView

end PageBuilder
