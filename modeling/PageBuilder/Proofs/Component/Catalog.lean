import PageBuilder.Proofs.Code.Visible
import PageBuilder.Proofs.Page.Defaults

/-!
Catalogs whose definitions were written and read again. A page compiles as before unless it starts a
pair with a default of null, and then it never does.
-/

namespace PageBuilder

open PageCompiler (Plan)

theorem ComponentDefinition.controlled_without_nulls (definition : ComponentDefinition) :
    definition.withoutNulls.controlled = definition.controlled := by
  rw [controlled, controlled, withoutNulls, SortedMap.mapValues]
  dsimp only
  rw [List.filterMap_map]
  rfl

theorem PageCompiler.change_event_without_nulls (definition : ComponentDefinition) :
    changeEvent? definition.withoutNulls = changeEvent? definition := by
  funext prop
  rw [changeEvent?, changeEvent?, ComponentDefinition.withoutNulls]
  dsimp only
  rw [SortedMap.get_map_values, Option.bind_map]
  rfl

namespace Catalog

variable {catalog : Catalog}

def withoutNulls (catalog : Catalog) : Catalog :=
  ⟨catalog.components.mapValues ComponentDefinition.withoutNulls⟩

def Named (catalog : Catalog) : Prop :=
  ∀ name definition, catalog.find? name = some definition → definition.name = name

theorem Named.extend (named : catalog.Named) (definitions : List ComponentDefinition) :
    (catalog.extend definitions).Named := by
  induction definitions generalizing catalog with
  | nil => exact named
  | cons definition rest ih =>
      refine ih fun name held found => ?_
      rw [find?, register, SortedMap.get_insert] at found
      split at found
      · rename_i same
        cases found
        exact same.symm
      · exact named name held found

theorem empty_named : Named empty := fun _ _ found => nomatch found

theorem find_extend (catalog : Catalog) (definitions : List ComponentDefinition) (name : String) :
    (catalog.extend definitions).find? name =
      ((SortedMap.ofList (definitions.map fun definition => (definition.name, definition))).get?
        name).or (catalog.find? name) := by
  have components : (catalog.extend definitions).components =
      (definitions.map fun definition => (definition.name, definition)).foldl
        (fun map entry => map.insert entry.1 entry.2) catalog.components := by
    rw [List.foldl_map]
    induction definitions generalizing catalog with
    | nil => rfl
    | cons definition rest ih => exact ih (catalog.register definition)
  rw [find?, components, SortedMap.get_foldl_insert, SortedMap.get_of_list]
  rfl

theorem Named.extend_read (named : catalog.Named) :
    catalog.extend (catalog.components.values.map ComponentDefinition.withoutNulls) =
      catalog.withoutNulls := by
  have entries : ((catalog.components.values.map ComponentDefinition.withoutNulls).map
      fun definition => (definition.name, definition)) =
        catalog.withoutNulls.components.entries := by
    rw [SortedMap.values, List.map_map, List.map_map]
    refine List.map_congr_left fun entry member => ?_
    have own := named entry.1 entry.2 (catalog.components.mem_entries_iff.1 member)
    exact congrArg (fun name => (name, entry.2.withoutNulls)) own
  have components : (catalog.extend (catalog.components.values.map
      ComponentDefinition.withoutNulls)).components = catalog.withoutNulls.components := by
    refine SortedMap.ext_get fun name => ?_
    have found := find_extend catalog
      (catalog.components.values.map ComponentDefinition.withoutNulls) name
    rw [entries, SortedMap.of_list_entries] at found
    refine found.trans ?_
    rw [withoutNulls, find?]
    dsimp only
    rw [SortedMap.get_map_values]
    cases catalog.components.get? name with
    | none => rfl
    | some definition => rfl
  exact congrArg mk components

theorem find_without_nulls (name : String) : catalog.withoutNulls.find? name =
    (catalog.find? name).map ComponentDefinition.withoutNulls := SortedMap.get_map_values _ _ _

theorem schema_without_nulls : catalog.withoutNulls.schema = catalog.schema.withoutNulls := by
  have knows : catalog.withoutNulls.schema.knows = catalog.schema.knows := by
    funext component
    rw [schema, schema]
    dsimp only
    rw [find_without_nulls, Option.isSome_map]
  have controlled : catalog.withoutNulls.schema.controlled = catalog.schema.controlled := by
    funext component
    rw [schema, schema]
    dsimp only
    rw [find_without_nulls]
    cases catalog.find? component with
    | none => rfl
    | some definition =>
        exact congrArg (List.map Prod.fst) definition.controlled_without_nulls
  have default : catalog.withoutNulls.schema.default? = catalog.schema.readDefault? := by
    funext component name
    rw [PropSchema.readDefault?, schema, schema]
    dsimp only [bind, Option.bind]
    rw [find_without_nulls]
    cases catalog.find? component with
    | none => rfl
    | some definition =>
        dsimp only [Option.map]
        rw [ComponentDefinition.withoutNulls]
        dsimp only
        rw [SortedMap.get_map_values]
        cases definition.props.get? name with
        | none => rfl
        | some prop => rfl
  rw [PropSchema.withoutNulls, PropSchema.withDefaults, ← knows, ← controlled, ← default]

end Catalog

namespace PageCompiler

variable {document : Document} {page : Node} {catalog : Catalog} {options : CompileOptions}

theorem definition_without_nulls (element : Node) : definition? catalog.withoutNulls element =
    (definition? catalog element).map ComponentDefinition.withoutNulls := by
  rw [definition?, definition?, Option.map_bind]
  congr 1
  funext name
  exact Catalog.find_without_nulls name

theorem import_table_without_nulls (document : Document) (page : NodeId) (catalog : Catalog)
    (options : CompileOptions) : importTable document page catalog.withoutNulls options =
      importTable document page catalog options := by
  have component : importComponent catalog.withoutNulls = importComponent catalog := by
    funext table element
    rw [importComponent, importComponent, definition_without_nulls]
    cases definition? catalog element with
    | none => rfl
    | some definition => rfl
  have runtime : hasRuntimeProp catalog.withoutNulls = hasRuntimeProp catalog := by
    funext element
    rw [hasRuntimeProp, hasRuntimeProp, Catalog.schema_without_nulls]
    rfl
  have names : runtimeNames document page catalog.withoutNulls options =
      runtimeNames document page catalog options := by
    rw [runtimeNames, runtimeNames, runtime]
    simp only [definition_without_nulls, Option.isSome_map]
  rw [importTable, importTable, component, names]

theorem unknown_without_nulls :
    unknownComponent? catalog.withoutNulls = unknownComponent? catalog := by
  funext element
  rw [unknownComponent?, unknownComponent?, definition_without_nulls]
  cases definition? catalog element with
  | none => rfl
  | some definition => rfl

def Plan.declaring (plan : Plan) (declarations : List StateDeclaration) : Plan :=
  { plan with bindings := { plan.bindings with declarations } }

theorem roots_without_nulls (plan : Plan) (declarations : List StateDeclaration) :
    (plan.declaring declarations).roots document catalog.withoutNulls options =
      plan.roots document catalog options := by
  have given (definition : ComponentDefinition) :
      propAttributes ((plan.declaring declarations).context document catalog.withoutNulls options)
          definition.withoutNulls =
        propAttributes (plan.context document catalog options) definition := by
    funext props entry
    rw [propAttributes, propAttributes, change_event_without_nulls]
    rfl
  have tag :
      elementTag ((plan.declaring declarations).context document catalog.withoutNulls options) =
        elementTag (plan.context document catalog options) := by
    funext element slots
    have known : ((plan.declaring declarations).context document catalog.withoutNulls
        options).catalog.find? (element.component?.getD "") =
          ((plan.context document catalog options).catalog.find?
            (element.component?.getD "")).map ComponentDefinition.withoutNulls :=
      Catalog.find_without_nulls _
    cases found : (plan.context document catalog options).catalog.find?
        (element.component?.getD "") with
    | none =>
        rw [found, Option.map_none] at known
        rw [element_tag_unknown known, element_tag_unknown found]
        rfl
    | some definition =>
        rw [found, Option.map_some] at known
        rw [element_tag_known known, element_tag_known found, attributes, attributes, given]
        rfl
  have render (depth : Nat) (nodes : List Node) :
      renderElements ((plan.declaring declarations).context document catalog.withoutNulls options)
          depth nodes =
        renderElements (plan.context document catalog options) depth nodes := by
    induction depth generalizing nodes with
    | zero => rfl
    | succ depth ih =>
        rw [renderElements, renderElements, tag]
        simp only [ih]
        rfl
  exact render _ _

/-- The module of a plan holds its declarations between two parts that do not depend on them. -/
theorem raw_without_nulls (plan : Plan) {declarations : List StateDeclaration}
    (lengths : declarations.length = plan.bindings.declarations.length) :
    (plan.declaring declarations).rawSource document catalog.withoutNulls options =
      plan.front ++ String.join (declarations.map (statement (plan.hooks options))) ++
        plan.back document catalog options := by
  have empty : (plan.declaring declarations).bindings.declarations.isEmpty =
      plan.bindings.declarations.isEmpty := by
    rw [Bool.eq_iff_iff, List.isEmpty_iff_length_eq_zero, List.isEmpty_iff_length_eq_zero,
      ← lengths]
    rfl
  have back : (plan.declaring declarations).back document catalog.withoutNulls options =
      plan.back document catalog options := by
    rw [Plan.back, Plan.back, roots_without_nulls, empty]
    rfl
  rw [raw_source_parts, back]
  rfl

theorem plan_without_nulls (holds : document.HoldsPage page) (catalog : Catalog)
    (options : CompileOptions) :
    (∃ fault, plan document page catalog options = .error fault ∧
        plan document page catalog.withoutNulls options = .error fault) ∨
      ∃ plan others, PageCompiler.plan document page catalog options = .ok plan ∧
        PageCompiler.plan document page catalog.withoutNulls options =
            .ok (plan.declaring others) ∧
          List.Forall₂ StateDeclaration.Fades plan.bindings.declarations others ∧
          (others = plan.bindings.declarations ↔
            ∀ key, ¬Document.StartsNull document page catalog.schema key) := by
  obtain ⟨table, imports⟩ := import_table_ok document page.id catalog options
  have again := (import_table_without_nulls document page.id catalog options).trans imports
  rw [Document.plan_eq imports, Document.plan_eq again, Catalog.schema_without_nulls,
    Document.bindings, Document.bindings, Document.node_of_type_ok.2 ⟨holds.found, holds.type⟩]
  dsimp only
  rcases Document.bindings_fade holds catalog.schema (Document.declared table page).2.scope.below
    with failed | bound
  · obtain ⟨fault, before, after⟩ := failed
    rw [before, after]
    exact Or.inl ⟨_, rfl, rfl⟩
  · obtain ⟨bindings, others, before, after, fades, kept⟩ := bound
    rw [before, after]
    exact Or.inr ⟨_, others, rfl, rfl, fades, kept⟩

open Code (visible visible_append)

theorem statement_fades (hooks : Code.Hooks) {declaration other : StateDeclaration}
    (fades : declaration.Fades other) : other = declaration ∨
      (visible (statement hooks other).toList).length <
        (visible (statement hooks declaration).toList).length := by
  cases fades with
  | same => exact Or.inl rfl
  | null key label names =>
      let front := "  const " ++ Code.targetCode names ++ " = " ++ hooks.react ++ ".useState("
      have before : statement hooks ⟨key, label, names, .controlledPair (some Json.null.text)⟩ =
          front ++ (Json.null.text ++ ");\n") := by
        simp [statement, Code.declaration, Code.sourceCode, ToString.toString, front,
          ← String.toList_inj]
      have after : statement hooks ⟨key, label, names, .controlledPair none⟩ = front ++ ");\n" := by
        simp [statement, Code.declaration, Code.sourceCode, ToString.toString, front,
          ← String.toList_inj]
      have null : (visible Json.null.text.toList).length = 4 := rfl
      refine Or.inr ?_
      rw [before, after]
      simp only [String.toList_append, visible_append, List.length_append, null]
      omega

theorem statements_fade (hooks : Code.Hooks) {declarations others : List StateDeclaration}
    (fades : List.Forall₂ StateDeclaration.Fades declarations others) : others = declarations ∨
      (visible (String.join (others.map (statement hooks))).toList).length <
        (visible (String.join (declarations.map (statement hooks))).toList).length := by
  induction fades with
  | nil => exact Or.inl rfl
  | cons first rest ih =>
      have size {declaration : StateDeclaration} {declarations : List StateDeclaration} :
          (visible (String.join ((declaration :: declarations).map
              (statement hooks))).toList).length =
            (visible (statement hooks declaration).toList).length +
              (visible (String.join (declarations.map (statement hooks))).toList).length := by
        rw [List.map_cons, String.join_cons, String.toList_append, visible_append,
          List.length_append]
      rw [size, size]
      rcases statement_fades hooks first with rfl | less
      · rcases ih with rfl | less
        · exact Or.inl rfl
        · exact Or.inr (Nat.add_lt_add_left less _)
      · rcases ih with rfl | lesser
        · exact Or.inr (Nat.add_lt_add_right less _)
        · exact Or.inr (Nat.add_lt_add less lesser)

/-- Modules that are the same when they are finished showed the same before. -/
theorem visible_of_finish {raw other : String} (same : finish options raw = finish options other) :
    visible raw.toList = visible other.toList := by
  rw [finish, finish] at same
  split at same
  · cases left : Code.layout raw with
    | ok source =>
        cases right : Code.layout other with
        | ok again =>
            rw [left, right] at same
            cases same
            exact (Code.layout_keeps_visible left).symm.trans (Code.layout_keeps_visible right)
        | error fault =>
            rw [left, right] at same
            cases congrArg Prod.snd same
    | error fault =>
        cases right : Code.layout other with
        | ok again =>
            rw [left, right] at same
            cases congrArg Prod.snd same
        | error again =>
            rw [left, right] at same
            obtain ⟨rfl, _⟩ := Prod.mk.inj same
            rfl
  · obtain ⟨rfl, _⟩ := Prod.mk.inj same
    rfl

/-- The modules are the same only where the declarations are. -/
theorem written_without_nulls {plan : Plan} {others : List StateDeclaration}
    (fades : List.Forall₂ StateDeclaration.Fades plan.bindings.declarations others) :
    Document.written document catalog.withoutNulls options (plan.declaring others) =
        Document.written document catalog options plan ↔
      others = plan.bindings.declarations := by
  have raw : (plan.declaring others).rawSource document catalog.withoutNulls options = _ :=
    raw_without_nulls plan fades.length_eq.symm
  constructor
  · intro same
    have source := congrArg CompiledPage.source same
    have diagnostics := congrArg CompiledPage.diagnostics same
    dsimp only [Document.written] at source diagnostics
    rw [unknown_without_nulls] at diagnostics
    have finished : finish options (plan.front ++ String.join (others.map (statement
        (plan.hooks options))) ++ plan.back document catalog options) =
          finish options (plan.rawSource document catalog options) := by
      rw [← raw]
      exact Prod.ext source (List.append_cancel_left diagnostics)
    -- A declaration that fades is shorter, and none gets longer.
    have shown := congrArg List.length (visible_of_finish finished)
    rw [raw_source_parts, Plan.statements] at shown
    simp only [String.toList_append, visible_append, List.length_append] at shown
    rcases statements_fade (plan.hooks options) fades with kept | less
    · exact kept
    · omega
  · rintro rfl
    have same : (plan.declaring plan.bindings.declarations).rawSource document catalog.withoutNulls
        options = plan.rawSource document catalog options := by
      rw [raw, raw_source_parts]
      rfl
    rw [Document.written, Document.written, same, unknown_without_nulls]
    rfl

end PageCompiler

namespace Document

variable {document : Document} {page : Node}

/-- An element that the page shows gives no value to a controlled prop of which the default is
null. -/
def StartsFromNull (document : Document) (page : NodeId) (catalog : Catalog) : Prop :=
  ∃ element component definition name prop,
    document.Shown page element ∧ element.component? = some component ∧
      catalog.find? component = some definition ∧ definition.props.get? name = some prop ∧
        prop.changeEvent.isSome ∧ prop.default = some .null ∧ ∀ value, ¬element.Gives name value

theorem starts_from_null_iff {catalog : Catalog} : document.StartsFromNull page.id catalog ↔
    ∃ key, StartsNull document page catalog.schema key := by
  constructor
  · intro starts
    obtain ⟨element, component, definition, name, prop, shown, shows, found, held, fires, null,
      unset⟩ := starts
    obtain ⟨event, fires⟩ := Option.isSome_iff_exists.1 fires
    have wired : PageCompiler.changeEvent? definition name = some event := by
      rw [PageCompiler.changeEvent?, held]
      exact fires
    have known : catalog.schema.knows component = true := Option.isSome_iff_exists.2 ⟨_, found⟩
    have controlled := (PageCompiler.controlled_iff found).2
      ⟨event, ComponentDefinition.mem_controlled_iff.2 wired⟩
    refine ⟨_, element, component, name, rfl, ⟨shown, shows, known, controlled⟩, ?_, unset⟩
    simp only [Catalog.schema, Option.bind_eq_bind, found, held, null, Option.bind_some]
  · intro starts
    obtain ⟨key, element, component, name, rfl, controls, default, unset⟩ := starts
    obtain ⟨definition, found⟩ := Option.isSome_iff_exists.1 controls.known
    obtain ⟨event, wired⟩ := (PageCompiler.controlled_iff found).1 controls.controlled
    obtain ⟨prop, held, fires⟩ :=
      Option.bind_eq_some_iff.1 (ComponentDefinition.mem_controlled_iff.1 wired)
    refine ⟨element, component, definition, name, prop, controls.shown, controls.shows, found, held,
      Option.isSome_iff_exists.2 ⟨event, fires⟩, ?_, unset⟩
    simpa only [Catalog.schema, Option.bind_eq_bind, found, held, Option.bind_some] using default

/-- Under a catalog that was read back a page compiles as before, unless it starts a pair with
null. -/
theorem compile_without_nulls_iff (valid : document.Valid) (id : NodeId) (catalog : Catalog)
    (options : CompileOptions) :
    document.compilePage id catalog.withoutNulls options = document.compilePage id catalog options ↔
      (∃ fault, document.compilePage id catalog options = .error fault) ∨
        ¬document.StartsFromNull id catalog := by
  cases found : document.nodeOfType id .page with
  | error fault =>
      rw [compile_page_missing found, compile_page_missing found]
      exact iff_of_true rfl (Or.inl ⟨_, rfl⟩)
  | ok page =>
      obtain ⟨holds, rfl⟩ := holds_page valid found
      rw [compile_page_found found, compile_page_found found]
      rcases PageCompiler.plan_without_nulls holds catalog options with failed | planned
      · obtain ⟨fault, before, after⟩ := failed
        rw [before, after]
        dsimp only [Except.map]
        exact iff_of_true rfl (Or.inl ⟨fault, rfl⟩)
      · obtain ⟨plan, others, before, after, fades, kept⟩ := planned
        have passes : ¬∃ fault, Except.map (written document catalog options)
            (.ok plan : Except CompileFault Plan) = .error fault := by
          rintro ⟨fault, failed⟩
          cases failed
        rw [before, after, or_iff_right passes, starts_from_null_iff, not_exists, ← kept]
        simp only [Except.map, Except.ok.injEq]
        exact PageCompiler.written_without_nulls fades

end Document

namespace Catalog

theorem read_definitions {definitions : List ComponentDefinition}
    (fit : ∀ definition ∈ definitions, definition.Whole ∧ definition.tree.levels ≤ nestingLimit) :
    (definitions.mapM fun definition => ComponentDefinition.ofText? definition.tree.compact) =
      some (definitions.map ComponentDefinition.withoutNulls) := by
  refine Decode.all_read fun definition member => ?_
  obtain ⟨whole, levels⟩ := fit definition member
  rw [ComponentDefinition.of_text_eq whole (Or.inl rfl), if_pos levels]

/-- A definition without floats is read back whole but for default values of null, as long as it
nests no deeper than a text may. So a catalog that is extended with the texts of its own definitions
compiles exactly those pages as before that start no pair with such a default. -/
theorem definitions_read_back (definitions : List ComponentDefinition) :
    (∀ definition ∈ definitions, definition.Whole →
      ∀ text ∈ [definition.tree.compact, definition.tree.indented],
        ComponentDefinition.ofText? text =
            (if definition.tree.levels ≤ nestingLimit then some definition.withoutNulls else none) ∧
          (ComponentDefinition.ofText? text = some definition ↔
            definition.tree.levels ≤ nestingLimit ∧
              ∀ prop ∈ definition.props.values, prop.default ≠ some .null)) ∧
      let catalog := Catalog.empty.extend definitions
      (∀ definition ∈ catalog.components.values,
          definition.Whole ∧ definition.tree.levels ≤ nestingLimit) →
        ∃ again, (catalog.components.values.mapM fun definition =>
            ComponentDefinition.ofText? definition.tree.compact) = some again ∧
          ∀ document : Document, document.Valid → ∀ id options,
            document.compilePage id (catalog.extend again) options =
                document.compilePage id catalog options ↔
              (∃ fault, document.compilePage id catalog options = .error fault) ∨
                ¬document.StartsFromNull id catalog := by
  constructor
  · intro definition _ whole text printed
    have read : ComponentDefinition.ofText? text = _ :=
      ComponentDefinition.of_text_eq whole (by simpa using printed)
    refine ⟨read, ?_⟩
    rw [read, ← ComponentDefinition.without_nulls_eq_iff]
    split
    · rename_i fits
      rw [Option.some_inj, and_iff_right fits]
    · rename_i deep
      exact iff_of_false nofun fun same => deep same.1
  · intro catalog fit
    refine ⟨_, read_definitions fit, fun document valid id options => ?_⟩
    rw [(empty_named.extend definitions).extend_read]
    exact document.compile_without_nulls_iff valid id catalog options

def choicePage (props : BindableMap) : Document :=
  let page : Node := ⟨"p", "home", none, .empty, .page .empty⟩
  let choice : Node :=
    ⟨"s", "choice", none, .ofList [("component", .constString "Select")], .element props⟩
  (Document.ofRoot "r").run [.addNode page "r" "pages" none, .addNode choice "p" "children" none]

/-- The builtin catalog has a component to choose with. No definition in it has a float or is too
deep, and two have a default of null. -/
theorem builtin_evaluated : (builtin.find? "Select").isSome ∧
    ∀ definition ∈ builtin.components.values,
      definition.tree.hasFloat = false ∧ definition.tree.levels ≤ nestingLimit ∧
        ((∀ prop ∈ definition.props.values,
            (prop.default.bind Json.unlessNull).isSome = prop.default.isSome) ↔
          definition.name ≠ "Select" ∧ definition.name ≠ "DataGrid") := by
  decide +kernel

theorem builtin_fits : ∀ definition ∈ builtin.components.values,
    definition.Whole ∧ definition.tree.levels ≤ nestingLimit := by
  intro definition member
  obtain ⟨floatFree, levels, _⟩ := builtin_evaluated.2 definition member
  exact ⟨ComponentDefinition.has_float_iff.1 floatFree, levels⟩

theorem null_in_builtin {definition : ComponentDefinition}
    (member : definition ∈ builtin.components.values) :
    (∀ prop ∈ definition.props.values, prop.default ≠ some .null) ↔
      definition.name ≠ "Select" ∧ definition.name ≠ "DataGrid" := by
  have seen (prop : PropDefinition) : (prop.default.bind Json.unlessNull).isSome =
      prop.default.isSome ↔ prop.default ≠ some .null := by
    cases prop.default with
    | none => simp
    | some value => rcases value.unless_null_cases with ⟨rfl, lost⟩ | ⟨other, kept⟩ <;> simp [*]
  simp only [← seen]
  exact (builtin_evaluated.2 definition member).2.2

/-- The module of that page, without what its pair starts with. -/
def choiceModule (initial : String) : String :=
  "import \x7b Select \x7d from \"@pagecraft/components\";\nimport * as React from \"react\";\n\n"
    ++ "export default function Home() \x7b\n"
    ++ "  const [choiceValue, setChoiceValue] = React.useState(" ++ initial ++ ");\n\n"
    ++ "  return (\n    <Select value=\x7bchoiceValue\x7d onChange=\x7bsetChoiceValue\x7d />\n"
    ++ "  );\n\x7d\n"

theorem choice_module_injective : Function.Injective choiceModule := by
  intro initial other same
  unfold choiceModule at same
  have statement := (String.append_left_inj _).1 same
  have argument := (String.append_left_inj _).1 ((String.append_left_inj _).1 statement)
  exact (String.append_right_inj _).1 argument

theorem choice_compiled :
    ((choicePage .empty).compilePage "p" builtin Document.rawOptions).map CompiledPage.source =
        .ok (choiceModule "null") ∧
      ((choicePage .empty).compilePage "p" builtin.withoutNulls Document.rawOptions).map
        CompiledPage.source = .ok (choiceModule "") ∧
      ((choicePage (.ofList [("value", .const .null)])).compilePage "p" builtin
        Document.rawOptions).map CompiledPage.component = .ok "Home" ∧
      (choicePage (.ofList [("value", .const .null)])).compilePage "p" builtin.withoutNulls
          Document.rawOptions =
        (choicePage (.ofList [("value", .const .null)])).compilePage "p" builtin
          Document.rawOptions := by
  refine ⟨?_, ?_, ?_, ?_⟩
  · decide +kernel
  · decide +kernel
  · decide +kernel
  · decide +kernel

theorem extend_builtin : builtin.extend (builtin.components.values.map
    ComponentDefinition.withoutNulls) = builtin.withoutNulls :=
  (empty_named.extend builtinComponents).extend_read

/-- The definition of a builtin component is not read back, and a page that shows the component
starts it with nothing. -/
theorem null_default_lost :
    (choicePage .empty).Valid ∧ ∃ definition again,
      builtin.find? "Select" = some definition ∧ definition.Whole ∧
      ComponentDefinition.ofText? definition.tree.compact ≠ some definition ∧
      (builtin.components.values.mapM fun definition =>
        ComponentDefinition.ofText? definition.tree.compact) = some again ∧
      ((choicePage .empty).compilePage "p" builtin Document.rawOptions).map CompiledPage.source =
        .ok (choiceModule "null") ∧
      ((choicePage .empty).compilePage "p" (builtin.extend again) Document.rawOptions).map
        CompiledPage.source = .ok (choiceModule "") := by
  obtain ⟨definition, found⟩ := Option.isSome_iff_exists.1 builtin_evaluated.1
  have name : definition.name = "Select" :=
    empty_named.extend builtinComponents _ _ found
  have member : definition ∈ builtin.components.values :=
    builtin.components.mem_values_iff.2 ⟨_, found⟩
  obtain ⟨whole, levels⟩ := builtin_fits definition member
  refine ⟨Document.valid_run (Document.valid_of_root "r") _, definition, _, found, whole, ?_,
    read_definitions builtin_fits, choice_compiled.1, ?_⟩
  · rw [ComponentDefinition.of_text_eq whole (Or.inl rfl), if_pos levels, ne_eq, Option.some_inj,
      ComponentDefinition.without_nulls_eq_iff, null_in_builtin member]
    exact fun other => other.1 name
  · rw [extend_builtin]
    exact choice_compiled.2.1

theorem definitions_read_back_sample :
    (∀ definition ∈ builtin.components.values,
      ComponentDefinition.ofText? definition.tree.compact = some definition ↔
        definition.name ≠ "Select" ∧ definition.name ≠ "DataGrid") ∧
      ∃ again, (builtin.components.values.mapM fun definition =>
          ComponentDefinition.ofText? definition.tree.compact) = some again ∧
        (choicePage .empty).StartsFromNull "p" builtin ∧
        ¬(choicePage (.ofList [("value", .const .null)])).StartsFromNull "p" builtin := by
  refine ⟨fun definition member => ?_, ?_⟩
  · obtain ⟨whole, levels⟩ := builtin_fits definition member
    have read := (definitions_read_back [definition]).1 definition List.mem_cons_self whole
    rw [(read _ List.mem_cons_self).2, and_iff_right levels, null_in_builtin member]
  · obtain ⟨again, read, pages⟩ := (definitions_read_back builtinComponents).2 builtin_fits
    have given := read_definitions builtin_fits
    have extended : builtin.extend again = builtin.withoutNulls := by
      rw [Option.some.inj (read.symm.trans given), extend_builtin]
    have told (props : BindableMap) :
        (choicePage props).compilePage "p" builtin.withoutNulls Document.rawOptions =
            (choicePage props).compilePage "p" builtin Document.rawOptions ↔
          (∃ fault, (choicePage props).compilePage "p" builtin Document.rawOptions =
              .error fault) ∨ ¬(choicePage props).StartsFromNull "p" builtin := by
      rw [← extended]
      exact pages _ (Document.valid_run (Document.valid_of_root "r") _) "p" Document.rawOptions
    obtain ⟨null, nothing, compiles, kept⟩ := choice_compiled
    refine ⟨again, read, ?_, ?_⟩
    · by_contra starts
      rw [(told .empty).2 (Or.inr starts), null] at nothing
      exact absurd (choice_module_injective (Except.ok.inj nothing)) (by decide)
    · obtain ⟨compiled, done, _⟩ := Outcome.map_eq_ok.1 compiles
      rcases (told (.ofList [("value", .const .null)])).1 kept with failed | passes
      · obtain ⟨fault, failed⟩ := failed
        rw [done] at failed
        cases failed
      · exact passes

end Catalog

end PageBuilder
