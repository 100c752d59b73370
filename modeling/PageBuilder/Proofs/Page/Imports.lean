import PageBuilder.Proofs.Page.EditorMode

/-!
What the module of a page imports, and the tags of the elements that it shows. The tag of an element
is imported for it, except where an element names no component and the catalog has one without a
name.
-/

namespace PageBuilder

namespace ImportTable

variable {table : ImportTable}

def Knows (table : ImportTable) (imported : Import) : Prop :=
  ∃ localName, table.alias? imported = some localName

theorem knows_import_named_iff {source name : String} {imported : Import} :
    (table.importNamed source name).2.Knows imported ↔
      table.Knows imported ∨ imported = .named source name := by
  constructor
  · intro known
    obtain ⟨localName, known⟩ := known
    rcases table.import_named_cases source name with ⟨_, _, same⟩ | ⟨_, added⟩
    · rw [same] at known
      exact Or.inl ⟨localName, known⟩
    · rw [added, alias_record_named] at known
      split at known
      · rename_i here
        exact Or.inr here
      · exact Or.inl ⟨localName, by cases imported <;> exact known⟩
  · rintro (known | rfl)
    · obtain ⟨localName, known⟩ := known
      exact ⟨localName, Aliased.import_named known source name⟩
    · exact table.aliased_import_named source name

end ImportTable

namespace PageCompiler

open Code (Carries)
open Text (Solid)

variable {document : Document} {catalog : Catalog} {options : CompileOptions} {table : ImportTable}

def Asks (catalog : Catalog) (element : Node) (imported : Import) : Prop :=
  ∃ definition, definition? catalog element = some definition ∧
    imported = .named definition.source definition.exported

theorem knows_component_iff {element : Node} {imported : Import} :
    (importComponent catalog table element).Knows imported ↔
      table.Knows imported ∨ Asks catalog element imported := by
  rw [importComponent, Asks]
  cases definition? catalog element with
  | none => simp
  | some definition => simp [ImportTable.knows_import_named_iff]

theorem knows_components_iff {elements : List Node} {imported : Import} :
    (elements.foldl (importComponent catalog) table).Knows imported ↔
      table.Knows imported ∨ ∃ element ∈ elements, Asks catalog element imported := by
  induction elements generalizing table with
  | nil => simp
  | cons element rest ih =>
      rw [List.foldl_cons, ih, knows_component_iff, or_assoc, List.exists_mem_cons_iff]

theorem knows_runtime_iff {names : List RuntimeName} {imported : Import} :
    (names.foldl (importRuntime options) table).Knows imported ↔
      table.Knows imported ∨ ∃ name ∈ names, imported = .named options.runtimeModule name.text := by
  induction names generalizing table with
  | nil => simp
  | cons name rest ih =>
      rw [List.foldl_cons, ih, importRuntime, ImportTable.knows_import_named_iff, or_assoc,
        List.exists_mem_cons_iff]

theorem alias_of_start (imported : Import) {start : ImportTable}
    (started : startTable = .ok start) :
    start.alias? imported = if imported = .whole reactModule then some reactAlias else none := by
  rw [start_table_eq] at started
  cases started
  rw [ImportTable.alias_record_whole]
  cases imported <;> rfl

/-- A module imports the framework, the components that it shows and what it needs at runtime. -/
theorem import_table_knows_iff {page : NodeId}
    (imports : importTable document page catalog options = .ok table) {imported : Import} :
    table.Knows imported ↔ imported = .whole reactModule ∨
      (∃ element ∈ document.markupElements page, Asks catalog element imported) ∨
      ∃ name ∈ runtimeNames document page catalog options,
        imported = .named options.runtimeModule name.text := by
  obtain ⟨start, started, rest⟩ := Outcome.bind_eq_ok.1 imports
  rw [← Except.ok.inj rest, knows_runtime_iff, knows_components_iff, ImportTable.Knows,
    alias_of_start imported started, or_assoc]
  have first : (∃ localName, (if imported = .whole reactModule then some reactAlias else none) =
      some localName) ↔ imported = .whole reactModule := by
    split <;> simp [*]
  rw [first]

theorem react_imported {page : NodeId}
    (imports : importTable document page catalog options = .ok table) :
    table.Aliased (.whole reactModule) reactAlias := by
  obtain ⟨start, started, rest⟩ := Outcome.bind_eq_ok.1 imports
  rw [← Except.ok.inj rest]
  apply runtime_keeps (ImportTable.Aliased _ _) fun source name held =>
    held.import_named source name
  apply components_keep (ImportTable.Aliased _ _) fun source name held =>
    held.import_named source name
  rw [ImportTable.Aliased, alias_of_start _ started, if_pos rfl]

theorem plan_knows_iff {page : Node} {plan : Plan}
    (planned : PageCompiler.plan document page catalog options = .ok plan) {imported : Import} :
    plan.imports.Knows imported ↔ imported = .whole reactModule ∨
      (∃ element ∈ document.markupElements page.id, Asks catalog element imported) ∨
      ∃ name ∈ runtimeNames document page.id catalog options,
        imported = .named options.runtimeModule name.text := by
  obtain ⟨table, imports, declares⟩ := Document.plan_table planned
  rw [← import_table_knows_iff imports, declares, ImportTable.Knows, ImportTable.Knows]
  simp only [Document.alias_declared]

def tagName (context : MarkupContext) (element : Node) : String :=
  (elementTag context element .empty).name

theorem element_tag_name (context : MarkupContext) (element : Node)
    (slots : SortedMap (List String)) :
    (elementTag context element slots).name = tagName context element := by
  rw [tagName]
  cases known : context.catalog.find? (element.component?.getD "") with
  | some definition => rw [element_tag_known known, element_tag_known known]
  | none => rw [element_tag_unknown known, element_tag_unknown known]

theorem tag_name_known {context : MarkupContext} {element : Node}
    {definition : ComponentDefinition}
    (known : context.catalog.find? (element.component?.getD "") = some definition) :
    tagName context element =
      aliasOr context.imports definition.source definition.exported := by
  rw [tagName, element_tag_known known]

theorem tag_name_unknown {context : MarkupContext} {element : Node}
    (unknown : context.catalog.find? (element.component?.getD "") = none) :
    tagName context element = context.react ++ ".Fragment" := by
  rw [tagName, element_tag_unknown unknown]

/-- The tag of an element is the alias under which its component is imported, or that of the
fragment if its component is not known. -/
inductive TagOf (catalog : Catalog) (imports : ImportTable) (element : Node) : String → Prop
  | component {definition : ComponentDefinition} {localName : String}
      (known : definition? catalog element = some definition)
      (imported : imports.alias? (.named definition.source definition.exported) =
        some localName) :
      TagOf catalog imports element localName
  | fragment {react : String} (unknown : definition? catalog element = none)
      (imported : imports.alias? (.whole reactModule) = some react) :
      TagOf catalog imports element (react ++ ".Fragment")

/-- An element that names no component, beside a component without a name. -/
def Unnamed (catalog : Catalog) (element : Node) (definition : ComponentDefinition) : Prop :=
  element.component? = none ∧ catalog.find? "" = some definition

theorem shown_definition {element : Node}
    (named : ∀ definition, ¬Unnamed catalog element definition) :
    catalog.find? (element.component?.getD "") = definition? catalog element := by
  rw [definition?]
  cases component : element.component? with
  | some name => rfl
  | none =>
      rw [Option.getD_none, Option.bind_none, Option.eq_none_iff_forall_ne_some]
      exact fun definition known => named definition ⟨component, known⟩

theorem react_of_plan {page : Node} {plan : Plan}
    (planned : PageCompiler.plan document page catalog options = .ok plan) :
    plan.imports.alias? (.whole reactModule) = some reactAlias := by
  obtain ⟨table, imports, declares⟩ := Document.plan_table planned
  rw [declares, Document.alias_declared]
  exact react_imported imports

theorem tag_of_named {page : Node} {plan : Plan}
    (planned : PageCompiler.plan document page catalog options = .ok plan) {element : Node}
    (member : element ∈ document.markupElements page.id)
    (named : ∀ definition, ¬Unnamed catalog element definition) :
    TagOf catalog plan.imports element
      (tagName (plan.context document catalog options) element) := by
  have shown : (plan.context document catalog options).catalog.find?
      (element.component?.getD "") = definition? catalog element := shown_definition named
  cases known : definition? catalog element with
  | some definition =>
      rw [tag_name_known (shown.trans known)]
      have asked : plan.imports.Knows (.named definition.source definition.exported) :=
        (plan_knows_iff planned).2 (Or.inr (Or.inl ⟨element, member, definition, known, rfl⟩))
      obtain ⟨localName, imported⟩ := asked
      have tag : aliasOr plan.imports definition.source definition.exported = localName :=
        alias_or_of_aliased imported
      change TagOf catalog plan.imports element
        (aliasOr plan.imports definition.source definition.exported)
      rw [tag]
      exact .component known imported
  | none =>
      have react := react_of_plan planned
      have whole : plan.imports.wholeOf? reactModule = some reactAlias := react
      rw [tag_name_unknown (shown.trans known)]
      change TagOf catalog plan.imports element
        ((plan.imports.wholeOf? reactModule).getD reactAlias ++ ".Fragment")
      rw [whole, Option.getD_some]
      exact .fragment known react

theorem TagOf.unbroken {page : Node} {plan : Plan}
    (planned : PageCompiler.plan document page catalog options = .ok plan) {element : Node}
    {tag : String} (shows : TagOf catalog plan.imports element tag) :
    ∀ char ∈ tag.toList, char ≠ '\n' ∧ char ≠ '\r' := by
  obtain ⟨table, imports, declares⟩ := Document.plan_table planned
  have sound := import_table_sound imports
  have part {imported : Import} {localName : String}
      (held : plan.imports.alias? imported = some localName) {char : Char}
      (member : char ∈ localName.toList) : char ≠ '\n' ∧ char ≠ '\r' := by
    rw [declares, Document.alias_declared] at held
    have inside := Identifier.is_part_of_valid (sound.usable held).valid member
    constructor
    · rintro rfl
      exact absurd inside (by decide)
    · rintro rfl
      exact absurd inside (by decide)
  intro char member
  cases shows with
  | component known imported => exact part imported member
  | fragment unknown imported =>
      rw [String.toList_append] at member
      rcases List.mem_append.1 member with alias_ | closing
      · exact part imported alias_
      · have feed : '\n' ∉ ".Fragment".toList := by decide
        have carriage : '\r' ∉ ".Fragment".toList := by decide
        exact ⟨fun same => feed (same ▸ closing), fun same => carriage (same ▸ closing)⟩

theorem opening_in_render (tag : Code.MarkupTag) :
    '<' :: tag.name.toList <:+: tag.render.toList := by
  have opened (rest : String) : '<' :: tag.name.toList <:+: (s!"<{tag.name}" ++ rest).toList :=
    ⟨[], rest.toList, by simp [ToString.toString]⟩
  have line : s!"<{tag.name}\n" = s!"<{tag.name}" ++ "\n" := by
    simp [ToString.toString, String.append_assoc]
  unfold Code.MarkupTag.render
  split
  · rw [String.append_assoc]
    exact opened _
  · rw [line]
    simp only [String.append_assoc]
    exact opened _

theorem tag_in_raw_source {plan : Plan} (holds : document.HoldsPage plan.page) {element : Node}
    (shown : document.Shown plan.page.id element)
    (unbroken : ∀ char ∈ (tagName (plan.context document catalog options) element).toList,
      char ≠ '\n' ∧ char ≠ '\r') :
    '<' :: (tagName (plan.context document catalog options) element).toList <:+:
      (plan.rawSource document catalog options).toList := by
  have line : ∀ char ∈ '<' :: (tagName (plan.context document catalog options) element).toList,
      char ≠ '\n' ∧ char ≠ '\r' := by
    intro char member
    rcases List.mem_cons.1 member with rfl | inside
    · exact ⟨by decide, by decide⟩
    · exact unbroken char inside
  have solid : Solid ('<' :: (tagName (plan.context document catalog options) element).toList) := by
    have ends := List.getLast?_eq_some_getLast (List.cons_ne_nil '<'
      (tagName (plan.context document catalog options) element).toList)
    exact ⟨_, ends, line _ (List.getLast_mem _)⟩
  obtain ⟨levels, here⟩ := shown_in_raw_source options holds solid shown fun slots => by
    have opening := opening_in_render
      (elementTag (plan.context document catalog options) element slots)
    rw [element_tag_name] at opening
    exact carries_marked solid element <| Carries.of_infix opening
  rw [Code.reindent_all_unbroken solid fun feed => (line _ feed).1 rfl] at here
  exact here

end PageCompiler

namespace Document

open PageCompiler

variable {document : Document} {catalog : Catalog}

/-- Unless an element names no component where the catalog has one without a name, its tag is the
alias of its component or that of the fragment, and it stands in the module. What a module imports
for components is asked for by elements that it shows. An unnamed element shows the component
without a name, for which nothing is imported. -/
theorem named_tags_imported (valid : document.Valid) {id : NodeId} {options : CompileOptions}
    {compiled : CompiledPage} (done : document.compilePage id catalog options = .ok compiled) :
    ∃ page plan, document.nodeOfType id .page = .ok page ∧
      PageCompiler.plan document page catalog options = .ok plan ∧
      compiled.source = (finish options (plan.rawSource document catalog options)).1 ∧
      (∀ element, document.Shown id element →
        (∀ slots, (elementTag (plan.context document catalog options) element slots).name =
          tagName (plan.context document catalog options) element) ∧
        ((∀ definition, ¬Unnamed catalog element definition) →
          TagOf catalog plan.imports element
            (tagName (plan.context document catalog options) element) ∧
          '<' :: (tagName (plan.context document catalog options) element).toList <:+:
            (plan.rawSource document catalog options).toList) ∧
        ∀ definition, Unnamed catalog element definition →
          tagName (plan.context document catalog options) element =
            aliasOr plan.imports definition.source definition.exported) ∧
      ∀ imported, plan.imports.Knows imported ↔ imported = .whole reactModule ∨
        (∃ element, document.Shown id element ∧ Asks catalog element imported) ∨
        ∃ name ∈ runtimeNames document id catalog options,
          imported = .named options.runtimeModule name.text := by
  obtain ⟨page, plan, found, planned, rfl⟩ := compile_page_ok done
  obtain ⟨holds, rfl⟩ := holds_page valid found
  have own := plan_page planned
  refine ⟨page, plan, found, planned, rfl, ?_, ?_⟩
  · intro element shown
    refine ⟨element_tag_name _ element, ?_, ?_⟩
    · intro named
      have tag := tag_of_named planned (holds.mem_markup_iff.2 shown) named
      refine ⟨tag, ?_⟩
      rw [← own] at holds shown
      exact tag_in_raw_source holds shown (tag.unbroken planned)
    · rintro definition ⟨component, known⟩
      unfold tagName elementTag
      rw [show (plan.context document catalog options).catalog = catalog from rfl, component,
        Option.getD_none, known]
      rfl
  · intro imported
    rw [plan_knows_iff planned]
    simp only [holds.mem_markup_iff]

theorem named_tags_imported_sample :
    (elementPage "home").Valid ∧ ∃ (compiled : CompiledPage) (plan : Plan) (element : Node),
      (elementPage "home").compilePage "p" oneComponent rawOptions = .ok compiled ∧
      (elementPage "home").Shown "p" element ∧
      TagOf oneComponent plan.imports element
        (tagName (plan.context (elementPage "home") oneComponent rawOptions) element) ∧
      plan.imports.Knows (.named "m" "T") := by
  have compiles : ((elementPage "home").compilePage "p" oneComponent rawOptions).map
      CompiledPage.component = .ok "Home" := by
    decide +kernel
  obtain ⟨compiled, done, _⟩ := Outcome.map_eq_ok.1 compiles
  obtain ⟨page, plan, found, planned, _, tags, imports⟩ :=
    named_tags_imported (element_page_valid "home") done
  obtain ⟨holds, own⟩ := holds_page (element_page_valid "home") found
  have listed : (some "T", some ("m", "T")) ∈ ((elementPage "home").markupElements "p").map
      fun element => (element.component?, (definition? oneComponent element).map
        fun definition => (definition.source, definition.exported)) := by
    decide +kernel
  obtain ⟨element, member, same⟩ := List.mem_map.1 listed
  obtain ⟨component, asks⟩ := Prod.mk.inj same
  have shown : (elementPage "home").Shown "p" element := by
    rw [← own] at member ⊢
    exact holds.mem_markup_iff.1 member
  have named : ∀ definition, ¬Unnamed oneComponent element definition := by
    rintro definition ⟨absent, _⟩
    rw [component] at absent
    cases absent
  refine ⟨element_page_valid "home", compiled, plan, element, done, shown,
    ((tags element shown).2.1 named).1, ?_⟩
  obtain ⟨definition, known, same⟩ := Option.map_eq_some_iff.1 asks
  obtain ⟨source, exported⟩ := Prod.mk.inj same
  refine (imports _).2 (Or.inr (Or.inl ⟨element, shown, definition, known, ?_⟩))
  rw [source, exported]

def unnamedPage : Document :=
  let page : Node := ⟨"p", "home", none, .empty, .page .empty⟩
  let element : Node := ⟨"t", "t", none, .empty, .element .empty⟩
  (ofRoot "r").run [.addNode page "r" "pages" none, .addNode element "p" "children" none]

def namelessComponent : Catalog := Catalog.empty.register ⟨"", "m", some "Widget", .empty⟩

/-- The import of an element without a component is decided otherwise than its tag. -/
theorem unnamed_tag_not_imported :
    ¬ ∀ (document : Document) (catalog : Catalog) (options : CompileOptions) (id : NodeId)
      (compiled : CompiledPage) (page : Node) (plan : Plan) (element : Node), document.Valid →
      document.compilePage id catalog options = .ok compiled →
      document.nodeOfType id .page = .ok page →
      PageCompiler.plan document page catalog options = .ok plan →
      document.Shown id element →
      TagOf catalog plan.imports element
        (tagName (plan.context document catalog options) element) := by
  intro always
  have valid : unnamedPage.Valid := valid_run (valid_of_root "r") _
  have compiles : (unnamedPage.compilePage "p" namelessComponent rawOptions).map
      CompiledPage.component = .ok "Home" := by
    decide +kernel
  obtain ⟨compiled, done, _⟩ := Outcome.map_eq_ok.1 compiles
  obtain ⟨page, plan, found, planned, _⟩ := compile_page_ok done
  obtain ⟨holds, own⟩ := holds_page valid found
  have listed : none ∈ (unnamedPage.markupElements "p").map Node.component? := by
    decide +kernel
  obtain ⟨element, member, component⟩ := List.mem_map.1 listed
  have shown : unnamedPage.Shown "p" element := by
    rw [← own] at member ⊢
    exact holds.mem_markup_iff.1 member
  have unknown : definition? namelessComponent element = none := by
    rw [definition?, component]
    rfl
  have tag := always _ namelessComponent rawOptions "p" compiled page plan element valid done found
    planned shown
  have name : ((unnamedPage.nodeOfType "p" .page).toOption.bind fun page =>
      (PageCompiler.plan unnamedPage page namelessComponent rawOptions).toOption.map fun plan =>
        (unnamedPage.markupElements "p").map
          (tagName (plan.context unnamedPage namelessComponent rawOptions))) = some ["Widget"] := by
    decide +kernel
  rw [found, Except.toOption, Option.bind_some, planned, Except.toOption, Option.map_some,
    Option.some.injEq] at name
  have here : tagName (plan.context unnamedPage namelessComponent rawOptions) element ∈
      ["Widget"] := by
    rw [← name]
    exact List.mem_map.2 ⟨element, member, rfl⟩
  rw [List.mem_singleton.1 here] at tag
  generalize same : "Widget" = widget at tag
  cases tag with
  | component known _ =>
      rw [unknown] at known
      cases known
  | fragment _ imported =>
      rw [react_of_plan planned] at imported
      cases imported
      exact absurd same (by decide)

end Document

end PageBuilder
