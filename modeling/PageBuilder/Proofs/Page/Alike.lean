import PageBuilder.Proofs.Page.View

/-!
Views that show the same page of two documents. They need not have the documents in common: what a
view looks up by identifier or by name counts only where it belongs to the page, and of other nodes
only whether they are apis. So everything that is resolved through the views is the same.
-/

namespace PageBuilder

namespace PageView

structure Alike (left right : PageView) : Prop where
  page : left.page = right.page
  schema : left.schema = right.schema
  entries : left.entries = right.entries
  markup : left.markup = right.markup
  inside : ∀ id, left.inside.contains id = right.inside.contains id
  get : ∀ id, left.inside.contains id = true → left.document.get? id = right.document.get? id
  named : ∀ name,
    ((left.document.nodeNamed? name).filter fun node => left.inside.contains node.id) =
      (right.document.nodeNamed? name).filter fun node => right.inside.contains node.id
  apis : ∀ id, isApi left.document id = isApi right.document id
  owned : ∀ key ∈ left.keys, left.inside.contains key.owner = true

/-- Of a document a slot needs only the nodes of the page. -/
theorem slot_key_congr {left right : Document} {insideLeft insideRight : List NodeId}
    (inside : ∀ id, insideLeft.contains id = insideRight.contains id)
    (get : ∀ id, insideLeft.contains id = true → left.get? id = right.get? id) (id : NodeId)
    (slot : String) : slotKey? left insideLeft id slot = slotKey? right insideRight id slot := by
  unfold slotKey?
  rw [← inside]
  split
  · rename_i within
    rw [get id within]
  · rfl

namespace Alike

variable {left right : PageView}

theorem keys_eq (alike : Alike left right) : left.keys = right.keys := by
  rw [keys, keys, alike.entries]

theorem has_eq (alike : Alike left right) : left.has = right.has := by
  funext key
  rw [has, has, alike.keys_eq]

theorem entry_of_eq (alike : Alike left right) : left.entryOf? = right.entryOf? := by
  funext key
  rw [entryOf?, entryOf?, alike.entries]

theorem target_eq (alike : Alike left right) (id : NodeId) (slot : String) :
    left.target? id slot = right.target? id slot := by
  rw [target?, target?, slot_key_congr alike.inside alike.get, alike.has_eq]

theorem path_from_eq (alike : Alike left right) (node : Node) (segments : List PathSegment) :
    left.pathFrom? node segments = right.pathFrom? node segments := by
  have slots (id : NodeId) : left.slotOn? id segments = right.slotOn? id segments := by
    unfold slotOn?
    simp only [alike.target_eq]
  unfold pathFrom?
  rw [slots]

theorem reference_eq (alike : Alike left right) (reference : Reference) :
    left.referenceTarget? reference = right.referenceTarget? reference := by
  have inside (view : PageView) : view.referenceTarget? reference =
      ((view.document.nodeNamed? reference.root).filter fun node =>
        view.inside.contains node.id).bind fun node =>
          view.pathFrom? node reference.segments := by
    rw [reference_target_eq]
    cases view.document.nodeNamed? reference.root with
    | none => rfl
    | some node =>
        rw [Option.bind_some, Option.filter_some]
        split
        · rfl
        · rfl
  rw [inside, inside, alike.named]
  simp only [alike.path_from_eq]

theorem value_reads_eq (alike : Alike left right) (value : Bindable) :
    left.valueReads value = right.valueReads value := by
  cases value with
  | binding node slot => rw [valueReads, valueReads, alike.target_eq]
  | bound text format => simp only [valueReads, alike.reference_eq]
  | const value | script text | secret reference => rfl

theorem entry_reads_eq (alike : Alike left right) (entry : StateEntry) :
    left.entryReads entry = right.entryReads entry := by
  cases entry with
  | node node => simp only [entryReads, alike.value_reads_eq]
  | computed element prop value => rw [entryReads, entryReads, alike.value_reads_eq]
  | pageSlot | owned | shared => rfl

theorem graph_eq (alike : Alike left right) : left.graph = right.graph := by
  unfold graph
  simp only [alike.entries, alike.entry_reads_eq]

theorem owner_within_eq (alike : Alike left right) (steps : Nat) (key : StateKey) :
    left.ownerWithin? steps key = right.ownerWithin? steps key := by
  induction steps generalizing key with
  | zero => rfl
  | succ steps ih =>
      unfold ownerWithin?
      rw [alike.entry_of_eq]
      split
      · rfl
      · exact ih _
      · rfl

theorem owner_eq (alike : Alike left right) (key : StateKey) :
    left.owner? key = right.owner? key := by
  rw [owner?, owner?, alike.entries, alike.owner_within_eq]

theorem label_of_owner (alike : Alike left right) {key : StateKey} (member : key ∈ left.keys) :
    left.document.labelOf key.owner = right.document.labelOf key.owner := by
  rw [Document.labelOf, Document.labelOf, alike.get _ (alike.owned key member)]

theorem label_eq (alike : Alike left right) {key : StateKey} (member : key ∈ left.keys) :
    left.label key = right.label key := by
  have owner := alike.label_of_owner member
  cases key with
  | pageSlot page slot => exact congrArg (fun label => s!"{label}.{slot}") owner
  | node id => exact owner
  | prop element prop => exact congrArg (fun label => s!"{label}.{prop}") owner

theorem uses_eq (alike : Alike left right) : PageNames.uses left = PageNames.uses right := by
  unfold PageNames.uses
  simp only [alike.entries, alike.entry_reads_eq]

theorem names_eq (alike : Alike left right) (scope : Scope) :
    PageNames.ofView left scope = PageNames.ofView right scope := by
  have use : PageNames.use left = PageNames.use right := by
    funext names key
    unfold PageNames.use
    rw [alike.owner_eq, alike.entry_of_eq]
  rw [PageNames.ofView, PageNames.ofView, alike.uses_eq, use]

theorem names_of_eq (alike : Alike left right) (names : PageNames) (key : StateKey) :
    names.of left key = names.of right key := by
  rw [PageNames.of, PageNames.of, alike.owner_eq]

theorem values_of_eq (alike : Alike left right) (names : PageNames) (keys : List StateKey) :
    names.valuesOf left keys = names.valuesOf right keys := by
  unfold PageNames.valuesOf
  simp only [alike.names_of_eq]

section Values

variable (names : PageNames)

theorem part_code_eq (alike : Alike left right) (format : BoundFormat) (part : TemplatePart) :
    left.partCode names format part = right.partCode names format part := by
  cases part with
  | interpolation reference =>
      simp only [partCode, referenceCode, alike.reference_eq, alike.names_of_eq]
  | text chars | invalid written fault => rfl

theorem value_code_eq (alike : Alike left right) (value : Bindable) :
    left.valueCode names value = right.valueCode names value := by
  cases value with
  | binding node slot => simp only [valueCode, alike.target_eq, alike.names_of_eq]
  | bound text format =>
      have parts : left.partCode names = right.partCode names := by
        funext format part
        exact alike.part_code_eq names format part
      rw [valueCode, valueCode, templateCode, templateCode, parts]
  | const value | script text | secret reference => rfl

theorem value_prop_eq (alike : Alike left right) (value : Bindable) :
    left.valueProp names value = right.valueProp names value := by
  cases value with
  | script text => rfl
  | const | binding | bound | secret =>
      simp only [valueProp, alike.value_code_eq]

theorem value_diagnostics_eq (alike : Alike left right) (position : ValuePosition)
    (owner : NodeId) (prop : String) (value : Bindable) :
    left.valueDiagnostics position owner prop value =
      right.valueDiagnostics position owner prop value := by
  cases value with
  | binding node slot => rw [valueDiagnostics, valueDiagnostics, alike.target_eq]
  | bound text format =>
      have parts : left.partDiagnostic? owner prop = right.partDiagnostic? owner prop := by
        funext part
        cases part with
        | interpolation reference =>
            rw [partDiagnostic?, partDiagnostic?, alike.reference_eq]
        | text chars | invalid written fault => rfl
      rw [valueDiagnostics, valueDiagnostics, parts]
  | const value | script text | secret reference => rfl

theorem source_eq (alike : Alike left right) (entry : StateEntry) :
    left.source? names entry = right.source? names entry := by
  cases entry with
  | node node =>
      simp only [source?, nodeSource, paramCodes, alike.value_code_eq, alike.values_of_eq,
        alike.entry_reads_eq]
  | owned element component prop value =>
      rw [source?, source?]
      unfold initialValue
      rw [alike.schema]
  | computed element prop value =>
      simp only [source?, alike.value_code_eq, alike.values_of_eq, alike.value_reads_eq]
  | pageSlot | shared => rfl

theorem declaration_eq (alike : Alike left right) (key : StateKey) :
    left.declaration? names key = right.declaration? names key := by
  unfold declaration?
  rw [← alike.entry_of_eq]
  cases found : left.entryOf? key with
  | none => rfl
  | some entry =>
      have member : key ∈ left.keys := by
        obtain ⟨⟨held, _⟩, first, _⟩ := Option.map_eq_some_iff.1 found
        have same : held = key := by simpa using List.find?_some first
        exact List.mem_map.2 ⟨_, List.mem_of_find?_eq_some first, same⟩
      simp only [alike.source_eq, alike.label_eq member, alike.names_of_eq]

theorem element_props_eq (alike : Alike left right) (element : Node) :
    left.elementProps names element = right.elementProps names element := by
  have controlled : left.controlledProp names = right.controlledProp names := by
    funext key
    simp only [controlledProp, alike.names_of_eq]
  have given : left.givenProp names element = right.givenProp names element := by
    funext entry
    simp only [givenProp, alike.has_eq, controlled, alike.value_prop_eq]
  unfold elementProps
  rw [alike.schema, controlled, given]

theorem props_eq (alike : Alike left right) : left.props names = right.props names := by
  unfold props
  simp only [alike.markup, alike.element_props_eq]

theorem shown_values_eq (alike : Alike left right) : left.shownValues = right.shownValues := by
  unfold shownValues
  simp only [alike.markup, alike.schema, alike.has_eq]

theorem uses_runtime_eq (alike : Alike left right) : left.usesRuntime = right.usesRuntime := by
  rw [usesRuntime, usesRuntime, alike.shown_values_eq]

theorem direct_entries_eq (alike : Alike left right) :
    left.directEntries names = right.directEntries names := by
  unfold directEntries
  rw [← alike.keys_eq]
  apply List.filterMap_congr
  intro key member
  cases key with
  | node id => simp only [alike.label_eq member, alike.names_of_eq]
  | pageSlot page slot | prop element prop => rfl

theorem group_of_eq (alike : Alike left right) (owner : String) :
    left.groupOf names owner = right.groupOf names owner := by
  unfold groupOf
  rw [← alike.keys_eq]
  congr 1
  apply List.filterMap_congr
  intro key member
  rw [alike.label_of_owner member, alike.names_of_eq]

theorem group_names_eq (alike : Alike left right) : left.groupNames = right.groupNames := by
  unfold groupNames
  rw [← alike.keys_eq]
  congr 1
  apply List.map_congr_left
  intro key member
  exact alike.label_of_owner (List.mem_filter.1 member).1

theorem runtime_scope_eq (alike : Alike left right) :
    left.runtimeScope names = right.runtimeScope names := by
  unfold runtimeScope groupEntries
  simp only [alike.direct_entries_eq, alike.group_names_eq, alike.group_of_eq]

end Values

theorem node_diagnostics_eq (alike : Alike left right) (node : Node) :
    left.nodeDiagnostics node = right.nodeDiagnostics node := by
  unfold nodeDiagnostics
  simp only [alike.apis]

theorem entry_diagnostics_eq (alike : Alike left right) (entry : StateEntry) :
    left.entryDiagnostics entry = right.entryDiagnostics entry := by
  unfold entryDiagnostics
  simp only [alike.value_diagnostics_eq, alike.node_diagnostics_eq]

theorem diagnostics_eq (alike : Alike left right) : left.diagnostics = right.diagnostics := by
  unfold diagnostics
  simp only [alike.entries, alike.entry_diagnostics_eq, alike.shown_values_eq,
    alike.value_diagnostics_eq]

end Alike

end PageView

end PageBuilder
