import PageBuilder.Proofs.Page.Imports
import PageBuilder.Proofs.Page.Props
import PageBuilder.Proofs.Page.Sources

/-!
Names of the runtime module. A module imports such a name exactly if its code uses it, or if a
component that it shows is one of that name and module. Names that are not imported have no part in
the code.
-/

namespace PageBuilder

theorem ComponentDefinition.mem_controlled_iff {definition : ComponentDefinition}
    {prop event : String} : (prop, event) ∈ definition.controlled ↔
      PageCompiler.changeEvent? definition prop = some event := by
  rw [controlled, List.mem_filterMap, PageCompiler.changeEvent?, Option.bind_eq_some_iff]
  constructor
  · rintro ⟨⟨name, property⟩, listed, given⟩
    obtain ⟨other, fires, same⟩ := Option.map_eq_some_iff.1 given
    obtain ⟨rfl, rfl⟩ := Prod.mk.inj same
    exact ⟨property, definition.props.mem_entries_iff.1 listed, fires⟩
  · rintro ⟨property, held, fires⟩
    exact ⟨(prop, property), definition.props.mem_entries_iff.2 held, by rw [fires]; rfl⟩

namespace PageCompiler

open Code (Carries Hooks Writer Wrote)
open Document (HasState KnownElement MadeFrom Shares ShowsValue)
open Text (Solid)

def Plan.scopeCode (plan : Plan) : String := plan.pageScope.getD "\x7b\x7d"

section Uses

variable (document : Document) (catalog : Catalog) (options : CompileOptions) (plan : Plan)

/-- A use of a name of the runtime module, with what is written there for a local name: the hook
of a query or of fetched state, a script in a prop of a known component, the marker around an
element. -/
inductive Uses : RuntimeName → (String → String) → Prop
  | query {declaration : StateDeclaration} {api : String} {node : NodeId}
      {params : List (String × String)} (declared : declaration ∈ plan.bindings.declarations)
      (source : declaration.source = .query api node params) :
      Uses .useDataQuery fun hook =>
        s!"const {Code.targetCode declaration.names} = {hook}({Json.stringText api}, "
          ++ s!"{Json.stringText node}, {Code.objectLiteral params});"
  | fetched {declaration : StateDeclaration} {params : List (String × String)}
      (declared : declaration ∈ plan.bindings.declarations)
      (source : declaration.source = .fetched params) :
      Uses .useFetchedState fun hook =>
        s!"const {Code.targetCode declaration.names} = {hook}({Code.objectLiteral params});"
  | script {element : Node} {definition : ComponentDefinition} {props : SortedMap ResolvedProp}
      {prop text : String} (shown : document.Shown plan.page.id element)
      (known : definition? catalog element = some definition)
      (resolved : plan.bindings.props.get? element.id = some props)
      (given : props.get? prop = some (.script text)) :
      Uses .evaluateExpression fun evaluate =>
        braced s!"{evaluate}({Json.stringText text}, {plan.scopeCode})"
  | marker {element : Node} (editor : options.editorMode = true)
      (shown : document.Shown plan.page.id element) :
      Uses .nodeMarker fun marker => s!"<{marker} nodeId={Json.stringText element.id}>"

end Uses

variable {document : Document} {catalog : Catalog} {options : CompileOptions} {plan : Plan}
  {page : Node}

theorem controlled_iff {component prop : String} {definition : ComponentDefinition}
    (known : catalog.find? component = some definition) :
    prop ∈ catalog.schema.controlled component ↔
      ∃ event, (prop, event) ∈ definition.controlled := by
  rw [Catalog.schema]
  dsimp only
  rw [known]
  simp

theorem known_element_iff {element : Node} :
    KnownElement catalog.schema element ↔
      ∃ definition, definition? catalog element = some definition := by
  simp only [KnownElement, Catalog.schema, definition?, Option.bind_eq_some_iff,
    Option.isSome_iff_exists]
  constructor
  · rintro ⟨component, shows, definition, known⟩
    exact ⟨definition, component, shows, known⟩
  · rintro ⟨definition, component, shows, known⟩
    exact ⟨component, shows, definition, known⟩

theorem RuntimeName.text_injective {left right : RuntimeName} (same : left.text = right.text) :
    left = right := by
  cases left <;> cases right <;> first | rfl | exact absurd same (by decide)

theorem mem_state_types_iff (holds : document.HoldsPage page) {type : NodeType} :
    type ∈ pageStateTypes document page.id ↔ type.isPageState = true ∧
      ∃ node, document.get? node.id = some node ∧ document.parentId? node.id = some page.id ∧
        node.type = type := by
  rw [pageStateTypes, List.mem_filter, List.mem_map]
  simp only [Document.mem_children_iff holds.stored]
  constructor
  · rintro ⟨⟨node, ⟨found, child⟩, same⟩, state⟩
    exact ⟨state, node, found, child, same⟩
  · rintro ⟨state, node, found, child, same⟩
    exact ⟨⟨node, ⟨found, child⟩, same⟩, state⟩

theorem has_runtime_prop_iff (holds : document.HoldsPage page) {element : Node}
    (shown : document.Shown page.id element) {definition : ComponentDefinition}
    (known : definition? catalog element = some definition) :
    hasRuntimeProp catalog element = true ↔
      ∃ prop text, ShowsValue document page catalog.schema element prop (.script text) := by
  have knows := known_element_iff.2 ⟨definition, known⟩
  have controlled_iff (prop : String) :
      catalog.schema.isControlled (element.component?.getD "") prop = true ↔
        HasState document page catalog.schema (.prop element.id prop) := by
    obtain ⟨component, shows, there⟩ := knows
    rw [shows, Option.getD_some, PropSchema.isControlled, List.contains_iff_mem,
      Document.prop_state_iff holds shown]
    constructor
    · exact fun controlled => ⟨component, shown, shows, there, controlled⟩
    · rintro ⟨other, controls⟩
      have same := controls.shows
      rw [shows] at same
      exact Option.some.inj same ▸ controls.controlled
  rw [hasRuntimeProp, List.any_eq_true]
  constructor
  · rintro ⟨⟨prop, value⟩, listed, runs⟩
    rw [Bool.and_eq_true, Bool.not_eq_true', ← Bool.not_eq_true, controlled_iff] at runs
    have given := Document.mem_given_props_iff.1 listed
    cases value with
    | script text => exact ⟨prop, text, shown, knows, given, runs.2⟩
    | const | binding | bound | secret => exact absurd runs.1 Bool.false_ne_true
  · rintro ⟨prop, text, shows⟩
    refine ⟨(prop, .script text), Document.mem_given_props_iff.2 shows.given, ?_⟩
    rw [Bool.and_eq_true, Bool.not_eq_true', ← Bool.not_eq_true, controlled_iff]
    exact ⟨rfl, shows.stateless⟩

/-- What the bindings of a plan are made of. -/
structure Bound (document : Document) (catalog : Catalog) (page : Node) (plan : Plan)
    (names : PageNames) : Prop where
  keys : ∀ key, key ∈ plan.bindings.declarations.map StateDeclaration.key ↔
    HasState document page catalog.schema key ∧
      ¬∃ target, Shares document page catalog.schema key target
  made : ∀ declaration ∈ plan.bindings.declarations,
    MadeFrom document page catalog.schema plan.bindings.declarations declaration.key
      declaration.source
  props : plan.bindings.props = (PageView.of document page catalog.schema).props names
  pageScope : plan.pageScope.isSome = (PageView.of document page catalog.schema).usesRuntime

theorem plan_bound (holds : document.HoldsPage page)
    (planned : PageCompiler.plan document page catalog options = .ok plan) :
    ∃ names, Bound document catalog page plan names := by
  obtain ⟨table, imports⟩ := import_table_ok document page.id catalog options
  rw [Document.plan_eq imports] at planned
  obtain ⟨bindings, resolved, same⟩ := Outcome.bind_eq_ok.1 planned
  have resolved := Outcome.map_error_eq_ok.1 resolved
  rw [Document.bindings, Document.node_of_type_ok.2 ⟨holds.found, holds.type⟩] at resolved
  dsimp only at resolved
  rw [PageView.bindings] at resolved
  split at resolved
  · cases resolved
  · rename_i order ended
    cases resolved
    cases same
    refine ⟨_, fun key => Document.mem_declared_keys_iff holds ended,
      fun declaration member => Document.declaration_made_from holds ended _ member, rfl, ?_⟩
    dsimp only
    cases (PageView.of document page catalog.schema).usesRuntime <;> rfl

def sourceType? : StateSource → Option NodeType
  | .derived _ _ _ => some .derivedState
  | .query _ _ _ => some .queryState
  | .fetched _ => some .fetchedState
  | .pageSlot _ | .controlledPair _ | .computed _ _ => none

theorem source_type_iff {schema : PropSchema} {declarations : List StateDeclaration}
    {key : StateKey} {source : StateSource} {type : NodeType}
    (made : MadeFrom document page schema declarations key source) :
    sourceType? source = some type ↔
      ∃ node, document.get? node.id = some node ∧ key = .node node.id ∧ node.type = type := by
  cases made with
  | slot | owned | computed =>
      constructor
      · intro absurd
        cases absurd
      · rintro ⟨_, _, absurd, _⟩
        cases absurd
  | @derived node _ _ _ _ _ found kind | @query node _ _ _ found kind
  | @fetched node _ _ found kind =>
      constructor
      · intro same
        refine ⟨node, found, rfl, ?_⟩
        rw [Node.type, kind]
        exact Option.some.inj same
      · rintro ⟨other, present, same, rfl⟩
        rw [← Document.eq_of_same_id found present (StateKey.node.inj same), Node.type, kind]
        rfl

theorem uses_marker_iff (holds : document.HoldsPage page) (own : plan.page = page) :
    (∃ text, Uses document catalog options plan .nodeMarker text) ↔
      options.editorMode = true ∧ document.markupElements page.id ≠ [] := by
  constructor
  · rintro ⟨text, used⟩
    cases used with
    | marker editor shown =>
        rw [own] at shown
        exact ⟨editor, List.ne_nil_of_mem (holds.mem_markup_iff.2 shown)⟩
  · rintro ⟨editor, nonempty⟩
    obtain ⟨element, member⟩ := List.exists_mem_of_ne_nil _ nonempty
    exact ⟨_, .marker editor (own ▸ holds.mem_markup_iff.1 member)⟩

section Bound

variable {names : PageNames} (bound : Bound document catalog page plan names)

include bound

theorem declared_type_iff (holds : document.HoldsPage page) {type : NodeType} :
    (∃ declaration ∈ plan.bindings.declarations, sourceType? declaration.source = some type) ↔
      type ∈ pageStateTypes document page.id := by
  rw [mem_state_types_iff holds]
  constructor
  · rintro ⟨declaration, member, same⟩
    obtain ⟨node, found, key, rfl⟩ := (source_type_iff (bound.made declaration member)).1 same
    have state := ((bound.keys _).1 (List.mem_map.2 ⟨declaration, member, rfl⟩)).1
    rw [key] at state
    generalize same : StateKey.node node.id = other at state
    cases state with
    | slot | prop => cases same
    | @node held present child type =>
        cases Document.eq_of_same_id found present (StateKey.node.inj same)
        exact ⟨type, _, present, child, rfl⟩
  · rintro ⟨state, node, found, child, rfl⟩
    have declared : StateKey.node node.id ∈
        plan.bindings.declarations.map StateDeclaration.key := by
      refine (bound.keys _).2 ⟨.node found child state, ?_⟩
      rintro ⟨target, shares⟩
      cases shares
    obtain ⟨declaration, member, key⟩ := List.mem_map.1 declared
    exact ⟨declaration, member, (source_type_iff (bound.made declaration member)).2
      ⟨node, found, key, rfl⟩⟩

theorem uses_query_iff (holds : document.HoldsPage page) :
    (∃ text, Uses document catalog options plan .useDataQuery text) ↔
      .queryState ∈ pageStateTypes document page.id := by
  rw [← declared_type_iff bound holds]
  constructor
  · rintro ⟨text, used⟩
    cases used with
    | query member source => exact ⟨_, member, by rw [source]; rfl⟩
  · rintro ⟨declaration, member, type⟩
    cases source : declaration.source with
    | query => exact ⟨_, .query member source⟩
    | pageSlot | controlledPair | computed | derived | fetched =>
        rw [source] at type
        cases type

theorem uses_fetched_iff (holds : document.HoldsPage page) :
    (∃ text, Uses document catalog options plan .useFetchedState text) ↔
      .fetchedState ∈ pageStateTypes document page.id := by
  rw [← declared_type_iff bound holds]
  constructor
  · rintro ⟨text, used⟩
    cases used with
    | fetched member source => exact ⟨_, member, by rw [source]; rfl⟩
  · rintro ⟨declaration, member, type⟩
    cases source : declaration.source with
    | fetched => exact ⟨_, .fetched member source⟩
    | pageSlot | controlledPair | computed | derived | query =>
        rw [source] at type
        cases type

theorem script_shown_iff (holds : document.HoldsPage page) {element : Node}
    (shown : document.Shown page.id element) {props : SortedMap ResolvedProp}
    (resolved : plan.bindings.props.get? element.id = some props) {prop text : String} :
    props.get? prop = some (.script text) ↔
      ShowsValue document page catalog.schema element prop (.script text) := by
  rw [bound.props, Document.props_of_shown holds names shown] at resolved
  rw [← Option.some.inj resolved, Document.element_prop_iff holds names shown]
  constructor
  · rintro (⟨_, absurd⟩ | ⟨value, shows, same⟩)
    · cases absurd
    · cases value with
      | script => cases same; exact shows
      | const | binding | bound | secret => cases same
  · exact fun shows => Or.inr ⟨_, shows, rfl⟩

theorem uses_evaluate_iff (holds : document.HoldsPage page) (own : plan.page = page) :
    (∃ text, Uses document catalog options plan .evaluateExpression text) ↔
      ∃ element prop text, ShowsValue document page catalog.schema element prop (.script text) := by
  constructor
  · rintro ⟨text, used⟩
    cases used with
    | script shown known resolved given =>
        rw [own] at shown
        exact ⟨_, _, _, (script_shown_iff bound holds shown resolved).1 given⟩
  · rintro ⟨element, prop, text, shows⟩
    obtain ⟨definition, known⟩ := known_element_iff.1 shows.known
    have resolved : plan.bindings.props.get? element.id =
        some ((PageView.of document page catalog.schema).elementProps names element) := by
      rw [bound.props]
      exact Document.props_of_shown holds names shows.shown
    exact ⟨_, .script (own ▸ shows.shown) known resolved
      ((script_shown_iff bound holds shows.shown resolved).2 shows)⟩

theorem page_scope_iff (holds : document.HoldsPage page) :
    plan.pageScope.isSome = true ↔
      ∃ element prop text, ShowsValue document page catalog.schema element prop (.script text) := by
  rw [bound.pageScope, PageView.usesRuntime, List.any_eq_true]
  constructor
  · rintro ⟨⟨element, prop, value⟩, listed, runs⟩
    have shows := (Document.mem_shown_values_iff holds).1 listed
    cases value with
    | script text => exact ⟨element, prop, text, shows⟩
    | const | binding | bound | secret => exact absurd runs Bool.false_ne_true
  · rintro ⟨element, prop, text, shows⟩
    exact ⟨_, (Document.mem_shown_values_iff holds).2 shows, rfl⟩

/-- What a page needs at runtime is what its code uses. -/
theorem mem_runtime_names_iff (holds : document.HoldsPage page) (own : plan.page = page)
    {name : RuntimeName} :
    name ∈ runtimeNames document page.id catalog options ↔
      ∃ text, Uses document catalog options plan name text := by
  have scripts : ((document.markupElements page.id).filter fun element =>
      (definition? catalog element).isSome).any (hasRuntimeProp catalog) = true ↔
        ∃ text, Uses document catalog options plan .evaluateExpression text := by
    rw [uses_evaluate_iff bound holds own, List.any_eq_true]
    simp only [List.mem_filter, Option.isSome_iff_exists]
    constructor
    · rintro ⟨element, ⟨member, definition, known⟩, runs⟩
      have shown := holds.mem_markup_iff.1 member
      exact ⟨element, (has_runtime_prop_iff holds shown known).1 runs⟩
    · rintro ⟨element, prop, text, shows⟩
      obtain ⟨definition, known⟩ := known_element_iff.1 shows.known
      exact ⟨element, ⟨holds.mem_markup_iff.2 shows.shown, definition, known⟩,
        (has_runtime_prop_iff holds shows.shown known).2 ⟨prop, text, shows⟩⟩
  have markers : (options.editorMode && !(document.markupElements page.id).isEmpty) = true ↔
      ∃ text, Uses document catalog options plan .nodeMarker text := by
    rw [uses_marker_iff holds own, Bool.and_eq_true, Bool.not_eq_true',
      List.isEmpty_eq_false_iff]
  have queries : .queryState ∈ pageStateTypes document page.id ↔
      ∃ text, Uses document catalog options plan .useDataQuery text :=
    (uses_query_iff bound holds).symm
  have fetches : .fetchedState ∈ pageStateTypes document page.id ↔
      ∃ text, Uses document catalog options plan .useFetchedState text :=
    (uses_fetched_iff bound holds).symm
  have listed {condition : Bool} {wanted : RuntimeName} :
      name ∈ (if condition then [wanted] else []) ↔ condition = true ∧ name = wanted := by
    cases condition <;> simp
  rw [runtimeNames, List.mem_append, List.mem_append, List.mem_append, listed, listed, listed,
    listed, scripts, markers, List.contains_iff_mem, List.contains_iff_mem, queries, fetches]
  cases name <;> simp

theorem runtime_imported_iff (holds : document.HoldsPage page)
    (planned : PageCompiler.plan document page catalog options = .ok plan) (name : RuntimeName) :
    plan.imports.Knows (.named options.runtimeModule name.text) ↔
      (∃ text, Uses document catalog options plan name text) ∨
      ∃ element, document.Shown page.id element ∧
        Asks catalog element (.named options.runtimeModule name.text) := by
  rw [plan_knows_iff planned, ← mem_runtime_names_iff bound holds (Document.plan_page planned)]
  simp only [holds.mem_markup_iff]
  constructor
  · rintro (absurd | asked | ⟨other, member, same⟩)
    · cases absurd
    · exact Or.inr asked
    · rw [RuntimeName.text_injective (Import.named.inj same).2]
      exact Or.inl member
  · rintro (member | asked)
    · exact Or.inr (Or.inr ⟨name, member, rfl⟩)
    · exact Or.inr (Or.inl asked)

end Bound

def Plan.localName (plan : Plan) (options : CompileOptions) (name : RuntimeName) : String :=
  aliasOr plan.imports options.runtimeModule name.text

theorem page_scope_in_raw_source (document : Document) (catalog : Catalog)
    (options : CompileOptions) {name : String} (declared : plan.pageScope = some name) :
    s!"const {name} = {scopeLiteral plan.bindings.runtimeScope};".toList <:+:
      (plan.rawSource document catalog options).toList := by
  have opened := opened_in_raw_source plan document catalog options
  refine List.IsInfix.trans ?_ opened.isInfix
  unfold Plan.opened writeBody
  rw [declared]
  dsimp only
  rw [if_neg (by simp)]
  simp only [Writer.addLine, Writer.addIndented, Writer.add, String.toList_append]
  refine List.IsInfix.trans ?_ (List.prefix_append _ _).isInfix
  refine List.IsInfix.trans ?_ (List.prefix_append _ _).isInfix
  exact (List.suffix_append _ _).isInfix

theorem RuntimeName.text_valid (name : RuntimeName) : Identifier.isValid name.text = true := by
  cases name <;> decide

theorem alias_or_valid (planned : PageCompiler.plan document page catalog options = .ok plan)
    {source name : String} (valid : Identifier.isValid name = true) :
    Identifier.isValid (aliasOr plan.imports source name) = true := by
  obtain ⟨table, imports, declares⟩ := Document.plan_table planned
  have sound := import_table_sound imports
  rw [aliasOr]
  cases held : plan.imports.aliasOf? source name with
  | none => exact valid
  | some localName =>
      have known : plan.imports.alias? (.named source name) = some localName := held
      rw [declares, Document.alias_declared] at known
      exact (sound.usable known).valid

theorem local_name_valid
    (planned : PageCompiler.plan document page catalog options = .ok plan) (name : RuntimeName) :
    Identifier.isValid (plan.localName options name) = true :=
  alias_or_valid planned (RuntimeName.text_valid name)

theorem local_name_unbroken
    (planned : PageCompiler.plan document page catalog options = .ok plan) (name : RuntimeName) :
    '\n' ∉ (plan.localName options name).toList := fun feed =>
  absurd (Identifier.is_part_of_valid (local_name_valid planned name) feed) (by decide)

theorem page_scope_unbroken (valid : document.Valid)
    (planned : PageCompiler.plan document page catalog options = .ok plan) :
    '\n' ∉ plan.scopeCode.toList := by
  obtain ⟨scope, adds⟩ := Document.plan_adds valid planned
  rw [Plan.scopeCode]
  cases held : plan.pageScope with
  | none => decide
  | some name =>
      have member : name ∈ plan.boundNames := by
        rw [Plan.boundNames, held]
        exact List.mem_append_right _ (List.mem_singleton_self name)
      intro feed
      have part := Identifier.is_part_of_valid (adds.usable name member).valid feed
      exact absurd part (by decide)

theorem line_in_raw_source (holds : document.HoldsPage plan.page) {piece : List Char}
    (solid : Solid piece) (unbroken : '\n' ∉ piece) {element : Node}
    (shown : document.Shown plan.page.id element)
    (own : ∀ slots, Carries (marked (plan.context document catalog options) element
      (elementTag (plan.context document catalog options) element slots).render) piece) :
    piece <:+: (plan.rawSource document catalog options).toList := by
  obtain ⟨levels, here⟩ := shown_in_raw_source options holds solid shown own
  rwa [Code.reindent_all_unbroken solid unbroken] at here

theorem script_in_raw_source (holds : document.HoldsPage plan.page) {element : Node}
    (shown : document.Shown plan.page.id element) {definition : ComponentDefinition}
    (known : definition? catalog element = some definition) {props : SortedMap ResolvedProp}
    (resolved : plan.bindings.props.get? element.id = some props) {prop text : String}
    (given : props.get? prop = some (.script text))
    (unbroken : '\n' ∉ (evaluation (plan.context document catalog options) text).toList) :
    (braced (evaluation (plan.context document catalog options) text)).toList <:+:
      (plan.rawSource document catalog options).toList := by
  have solid : Solid (braced (evaluation (plan.context document catalog options) text)).toList := by
    rw [braced, String.toList_append]
    exact Solid.behind ⟨'\x7d', rfl, by decide, by decide⟩ _
  refine line_in_raw_source holds solid ?_ shown fun slots => carries_marked solid element ?_
  · simpa [braced] using unbroken
  · have found : (plan.context document catalog options).catalog.find?
        (element.component?.getD "") = some definition := by
      obtain ⟨component, shows, here⟩ := Option.bind_eq_some_iff.1 known
      rw [shows]
      exact here
    rw [element_tag_known found]
    have listed : (prop, braced (evaluation (plan.context document catalog options) text)) ∈
        attributes (plan.context document catalog options) definition element := by
      unfold attributes
      rw [show (plan.context document catalog options).bindings = plan.bindings from rfl, resolved]
      exact List.mem_flatMap.2 ⟨_, props.mem_entries_iff.2 given, List.mem_singleton_self _⟩
    refine Code.MarkupTag.carries_attribute listed ⟨prop.toList ++ ['='], [], ?_⟩
    simp [Code.MarkupTag.attributeText]

theorem marker_in_raw_source (holds : document.HoldsPage plan.page) {element : Node}
    (shown : document.Shown plan.page.id element) (editor : options.editorMode = true)
    (unbroken : '\n' ∉ (plan.localName options .nodeMarker).toList) :
    (Code.openingTag (plan.localName options .nodeMarker) element.id).toList <:+:
      (plan.rawSource document catalog options).toList := by
  refine line_in_raw_source holds (Code.Wrapped.solid_opening _ _)
    (Code.opening_unbroken unbroken _) shown fun slots => ?_
  have marker : (plan.context document catalog options).marker =
      some (plan.localName options .nodeMarker) := if_pos editor
  have opening : s!"<{plan.localName options .nodeMarker} nodeId={Json.stringText element.id}>\n" =
      Code.openingTag (plan.localName options .nodeMarker) element.id ++ "\n" := by
    simp [Code.openingTag, ToString.toString, String.append_assoc]
  unfold marked
  rw [marker]
  dsimp only
  rw [opening, String.append_assoc, String.append_assoc]
  have carries := @Carries.of_infix
    (Code.openingTag (plan.localName options .nodeMarker) element.id) _ List.infix_rfl
  exact carries.append_left _

theorem use_in_raw_source (holds : document.HoldsPage page)
    (planned : PageCompiler.plan document page catalog options = .ok plan) {name : RuntimeName}
    {text : String → String} (used : Uses document catalog options plan name text) :
    (text (plan.localName options name)).toList <:+:
      (plan.rawSource document catalog options).toList := by
  have own := Document.plan_page planned
  have here : document.HoldsPage plan.page := own ▸ holds
  cases used with
  | @query declaration api node params member source =>
      have inside := declaration_in_raw_source plan document catalog options member
      rw [source] at inside
      simpa [Code.declaration, Code.sourceCode, Plan.hooks, Plan.localName, ToString.toString]
        using inside
  | @fetched declaration params member source =>
      have inside := declaration_in_raw_source plan document catalog options member
      rw [source] at inside
      simpa [Code.declaration, Code.sourceCode, Plan.hooks, Plan.localName, ToString.toString]
        using inside
  | @script element definition props prop text shown known resolved given =>
      apply script_in_raw_source here shown known resolved given
      have name := local_name_unbroken planned .evaluateExpression
      have scope := page_scope_unbroken holds.valid planned
      have quoted := Code.string_text_unbroken text
      have code : evaluation (plan.context document catalog options) text =
          s!"{plan.localName options .evaluateExpression}({Json.stringText text}, "
            ++ s!"{plan.scopeCode})" := by
        simp [evaluation, Plan.context, Plan.localName, Plan.scopeCode, ToString.toString,
          String.append_assoc]
      rw [code]
      simp [ToString.toString, name, scope, quoted]
  | marker editor shown =>
      exact marker_in_raw_source here shown editor (local_name_unbroken planned .nodeMarker)

/-- The hooks of a plan under other names. -/
def Plan.hooksAs (plan : Plan) (options : CompileOptions) (names : RuntimeName → String) : Hooks :=
  { plan.hooks options with
    useDataQuery := names .useDataQuery
    useFetchedState := names .useFetchedState }

def Plan.contextAs (plan : Plan) (document : Document) (catalog : Catalog)
    (options : CompileOptions) (names : RuntimeName → String) : MarkupContext :=
  { plan.context document catalog options with
    evaluate := names .evaluateExpression
    marker := if options.editorMode then some (names .nodeMarker) else none }

/-- The module of a plan if what it takes from the runtime module had these names in its code. -/
def Plan.sourceAs (plan : Plan) (document : Document) (catalog : Catalog)
    (options : CompileOptions) (names : RuntimeName → String) : String :=
  plan.imports.render ++
    moduleCode plan.component plan.bindings (plan.hooksAs options names) plan.pageScope
      (renderElements (plan.contextAs document catalog options names) document.size
        (document.childrenIn plan.page.id childrenSlot))

theorem source_as_local_names (plan : Plan) (document : Document) (catalog : Catalog)
    (options : CompileOptions) :
    plan.sourceAs document catalog options (plan.localName options) =
      plan.rawSource document catalog options :=
  (raw_source_behind plan document catalog options).symm

theorem render_elements_congr {left right : MarkupContext} (same : left.document = right.document)
    {depth : Nat} {nodes : List Node}
    (each : ∀ element ∈ left.document.elementsBelow depth nodes, ∀ slots,
      marked left element (elementTag left element slots).render =
        marked right element (elementTag right element slots).render) :
    renderElements left depth nodes = renderElements right depth nodes := by
  induction depth generalizing nodes with
  | zero => rfl
  | succ depth ih =>
      rw [Document.elementsBelow] at each
      rw [renderElements, renderElements, ← same]
      apply List.map_congr_left
      intro element member
      have here := fun below inside => each below (List.mem_flatMap.2 ⟨element, member, inside⟩)
      have slots : (left.document.childSlots element.id).map (fun slot =>
          (slot.1, renderElements left depth slot.2)) =
          (left.document.childSlots element.id).map fun slot =>
            (slot.1, renderElements right depth slot.2) := by
        apply List.map_congr_left
        intro slot listed
        rw [ih]
        intro below inside
        apply here below
        apply List.mem_cons_of_mem
        rw [Document.children, Document.elements_below_slots]
        exact List.mem_flatMap.2 ⟨slot, listed, inside⟩
      dsimp only
      rw [slots]
      exact here element List.mem_cons_self _

section Congruence

variable {left right : RuntimeName → String}
  (agree : ∀ name text, Uses document catalog options plan name text → left name = right name)

include agree

theorem declaration_congr {declaration : StateDeclaration}
    (member : declaration ∈ plan.bindings.declarations) :
    Code.declaration (plan.hooksAs options left) declaration.names declaration.source =
      Code.declaration (plan.hooksAs options right) declaration.names declaration.source := by
  cases source : declaration.source with
  | query =>
      have same := agree _ _ (.query member source)
      simp [Code.declaration, Code.sourceCode, Plan.hooksAs, same]
  | fetched =>
      have same := agree _ _ (.fetched member source)
      simp [Code.declaration, Code.sourceCode, Plan.hooksAs, same]
  | controlledPair initial => cases initial <;> rfl
  | pageSlot | computed | derived => rfl

theorem body_congr (writer : Writer) :
    writeBody plan.bindings (plan.hooksAs options left) plan.pageScope writer =
      writeBody plan.bindings (plan.hooksAs options right) plan.pageScope writer := by
  have declarations : plan.bindings.declarations.foldl
      (writeDeclaration (plan.hooksAs options left)) writer =
        plan.bindings.declarations.foldl
          (writeDeclaration (plan.hooksAs options right)) writer := by
    apply List.foldl_ext
    intro writer declaration member
    rw [writeDeclaration, writeDeclaration, declaration_congr agree member]
  unfold writeBody
  rw [declarations]

theorem attributes_congr {names : PageNames} (holds : document.HoldsPage page)
    (bound : Bound document catalog page plan names) (own : plan.page = page) {element : Node}
    (shown : document.Shown page.id element) (definition : ComponentDefinition) :
    attributes (plan.contextAs document catalog options left) definition element =
      attributes (plan.contextAs document catalog options right) definition element := by
  have bindings (names : RuntimeName → String) :
      (plan.contextAs document catalog options names).bindings = plan.bindings := rfl
  unfold attributes
  rw [bindings, bindings]
  cases resolved : plan.bindings.props.get? element.id with
  | none => rfl
  | some props =>
      dsimp only
      apply List.flatMap_congr
      rintro ⟨prop, value⟩ listed
      cases value with
      | script text =>
          have given := props.mem_entries_iff.1 listed
          have shows := (script_shown_iff bound holds shown resolved).1 given
          obtain ⟨asked, known⟩ := known_element_iff.1 shows.known
          have same := agree _ _ (.script (own ▸ shown) known resolved given)
          simp [propAttributes, evaluation, Plan.contextAs, same]
      | code | controlled => rfl

theorem element_congr {names : PageNames} (holds : document.HoldsPage page)
    (bound : Bound document catalog page plan names) (own : plan.page = page) {element : Node}
    (shown : document.Shown page.id element) (slots : SortedMap (List String)) :
    marked (plan.contextAs document catalog options left) element
        (elementTag (plan.contextAs document catalog options left) element slots).render =
      marked (plan.contextAs document catalog options right) element
        (elementTag (plan.contextAs document catalog options right) element slots).render := by
  have tag : elementTag (plan.contextAs document catalog options left) element slots =
      elementTag (plan.contextAs document catalog options right) element slots := by
    have same := attributes_congr agree holds bound own shown
    cases known : catalog.find? (element.component?.getD "") with
    | some definition =>
        have found (chosen : RuntimeName → String) : (plan.contextAs document catalog options
            chosen).catalog.find? (element.component?.getD "") = some definition := known
        rw [element_tag_known (found left), element_tag_known (found right), same]
        rfl
    | none =>
        have missing (chosen : RuntimeName → String) : (plan.contextAs document catalog options
            chosen).catalog.find? (element.component?.getD "") = none := known
        rw [element_tag_unknown (missing left), element_tag_unknown (missing right)]
        rfl
  have marker : (plan.contextAs document catalog options left).marker =
      (plan.contextAs document catalog options right).marker := by
    cases editor : options.editorMode with
    | false => simp [Plan.contextAs, editor]
    | true =>
        have same := agree _ _ (.marker editor (own ▸ shown))
        simp [Plan.contextAs, same]
  unfold marked
  rw [tag, marker]

theorem source_congr (holds : document.HoldsPage page)
    (planned : PageCompiler.plan document page catalog options = .ok plan) :
    plan.sourceAs document catalog options left = plan.sourceAs document catalog options right := by
  obtain ⟨names, bound⟩ := plan_bound holds planned
  have own := Document.plan_page planned
  have roots : renderElements (plan.contextAs document catalog options left) document.size
      (document.childrenIn plan.page.id childrenSlot) =
        renderElements (plan.contextAs document catalog options right) document.size
          (document.childrenIn plan.page.id childrenSlot) := by
    apply render_elements_congr
    · rfl
    · intro element member slots
      rw [own] at member
      exact element_congr agree holds bound own (holds.mem_markup_iff.1 member) slots
  rw [Plan.sourceAs, Plan.sourceAs, roots, moduleCode, moduleCode, body_congr agree]

end Congruence

end PageCompiler

namespace Document

open PageCompiler

variable {document : Document} {catalog : Catalog}

/-- A name of the runtime module is imported if the code of a page uses it or if the page shows a
component of that name and module, and in no other case. Where it is used the alias of the import is
written, so the code is the same under any names that have these aliases for what is imported. The
object for scripts is declared exactly if there are scripts to evaluate. -/
theorem runtime_imports_used (valid : document.Valid) {id : NodeId} {options : CompileOptions}
    {compiled : CompiledPage} (done : document.compilePage id catalog options = .ok compiled) :
    ∃ page plan, document.nodeOfType id .page = .ok page ∧
      PageCompiler.plan document page catalog options = .ok plan ∧
      compiled.source = (finish options (plan.rawSource document catalog options)).1 ∧
      (∀ name : RuntimeName, plan.imports.Knows (.named options.runtimeModule name.text) ↔
        (∃ text, Uses document catalog options plan name text) ∨
        ∃ element, document.Shown id element ∧
          Asks catalog element (.named options.runtimeModule name.text)) ∧
      (∀ name text, Uses document catalog options plan name text → ∃ localName,
        plan.imports.aliasOf? options.runtimeModule name.text = some localName ∧
        (text localName).toList <:+: (plan.rawSource document catalog options).toList) ∧
      (∀ names : RuntimeName → String,
        (∀ name localName,
          plan.imports.aliasOf? options.runtimeModule name.text = some localName →
            names name = localName) →
        plan.sourceAs document catalog options names =
          plan.rawSource document catalog options) ∧
      (plan.pageScope.isSome = true ↔
        ∃ text, Uses document catalog options plan .evaluateExpression text) ∧
      ∀ name, plan.pageScope = some name →
        s!"const {name} = {scopeLiteral plan.bindings.runtimeScope};".toList <:+:
          (plan.rawSource document catalog options).toList := by
  obtain ⟨page, plan, found, planned, rfl⟩ := compile_page_ok done
  obtain ⟨holds, rfl⟩ := holds_page valid found
  have own := plan_page planned
  obtain ⟨names, bound⟩ := plan_bound holds planned
  have imported {name : RuntimeName} {text : String → String}
      (used : Uses document catalog options plan name text) :
      plan.imports.aliasOf? options.runtimeModule name.text =
        some (plan.localName options name) := by
    obtain ⟨localName, known⟩ :=
      (runtime_imported_iff bound holds planned name).2 (Or.inl ⟨text, used⟩)
    rw [Plan.localName, alias_or_of_aliased known]
    exact known
  refine ⟨page, plan, found, planned, rfl, runtime_imported_iff bound holds planned, ?_, ?_, ?_, ?_⟩
  · intro name text used
    exact ⟨_, imported used, use_in_raw_source holds planned used⟩
  · intro names agree
    rw [← source_as_local_names]
    refine source_congr (fun name text used => ?_) holds planned
    exact agree name _ (imported used)
  · rw [page_scope_iff bound holds, uses_evaluate_iff bound holds own]
  · exact fun name declared => page_scope_in_raw_source document catalog options declared

def scriptPage : Document :=
  let page : Node := ⟨"p", "home", none, .empty, .page .empty⟩
  let element : Node := ⟨"t", "t", none, .ofList [("component", .constString "T")],
    .element (.ofList [("content", .script "1 + 1")])⟩
  (ofRoot "r").run [.addNode page "r" "pages" none, .addNode element "p" "children" none]

def evaluatingComponent : Catalog :=
  Catalog.empty.register ⟨"T", "lib", some "evaluateExpression", .empty⟩

theorem runtime_imports_used_sample :
    scriptPage.Valid ∧ ∃ (compiled : CompiledPage) (plan : Plan) (text : String → String),
      scriptPage.compilePage "p" evaluatingComponent (production "m") = .ok compiled ∧
      plan.pageScope = some "pageScope" ∧
      Uses scriptPage evaluatingComponent (production "m") plan .evaluateExpression text ∧
      (text "evaluateExpression1").toList <:+:
        (plan.rawSource scriptPage evaluatingComponent (production "m")).toList ∧
      ¬∃ text, Uses scriptPage evaluatingComponent (production "m") plan .useFetchedState text := by
  have valid : scriptPage.Valid := valid_run (valid_of_root "r") _
  have compiles : (scriptPage.compilePage "p" evaluatingComponent (production "m")).map
      CompiledPage.component = .ok "Home" := by
    decide +kernel
  obtain ⟨compiled, done, _⟩ := Outcome.map_eq_ok.1 compiles
  obtain ⟨page, plan, found, planned, _, imports, written, _, scripts, _⟩ :=
    runtime_imports_used valid done
  have names : ((scriptPage.nodeOfType "p" .page).toOption.bind fun page =>
      (PageCompiler.plan scriptPage page evaluatingComponent (production "m")).toOption.map
        fun plan => (plan.pageScope, plan.imports.aliasOf? "m" "evaluateExpression",
          plan.imports.aliasOf? "m" "useFetchedState")) =
        some (some "pageScope", some "evaluateExpression1", none) := by
    decide +kernel
  rw [found, Except.toOption, Option.bind_some, planned, Except.toOption, Option.map_some,
    Option.some.injEq, Prod.mk.injEq, Prod.mk.injEq] at names
  obtain ⟨pageScope, evaluate, fetched⟩ := names
  obtain ⟨text, used⟩ := scripts.1 (by rw [pageScope]; rfl)
  obtain ⟨localName, known, stands⟩ := written _ _ used
  have same : localName = "evaluateExpression1" :=
    Option.some.inj (known.symm.trans evaluate)
  refine ⟨valid, compiled, plan, text, done, pageScope, used, same ▸ stands, ?_⟩
  intro unused
  obtain ⟨localName, known⟩ := (imports .useFetchedState).2 (Or.inl unused)
  exact absurd (fetched.symm.trans known) (by simp)

end Document

end PageBuilder
