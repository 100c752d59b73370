import PageBuilder.Proofs.Page.Markers

/-!
Pages in editor mode. The marker is one more import, and it takes its alias before the names of the
page are given. Unless one of these is the alias, the modules of a page with and without markers are
the same up to these and their import.
-/

namespace PageBuilder

namespace PageCompiler

def production (runtime : String) : CompileOptions := ⟨false, false, runtime⟩

def editing (runtime : String) : CompileOptions := ⟨true, false, runtime⟩

def Plan.ownNames (plan : Plan) : List String :=
  [plan.component] ++ (plan.bindings.declarations.flatMap fun declaration => declaration.names.all)
    ++ plan.pageScope.toList

def markerAlias? (imports : ImportTable) (runtime : String) : Option String :=
  imports.aliasOf? runtime RuntimeName.nodeMarker.text

variable {document : Document} {catalog : Catalog} {runtime : String}

theorem runtime_names_editing (document : Document) (page : NodeId) (catalog : Catalog)
    (runtime : String) :
    runtimeNames document page catalog (editing runtime) =
      runtimeNames document page catalog (production runtime) ++
        if (document.markupElements page).isEmpty then [] else [.nodeMarker] := by
  unfold runtimeNames
  dsimp only [editing, production]
  generalize (document.markupElements page).isEmpty = bare
  cases bare with
  | true => simp
  | false => simp

theorem import_table_editing {page : NodeId} {table : ImportTable}
    (imports : importTable document page catalog (production runtime) = .ok table) :
    importTable document page catalog (editing runtime) =
      .ok (if (document.markupElements page).isEmpty then table
        else (table.importNamed runtime RuntimeName.nodeMarker.text).2) := by
  obtain ⟨start, started, rest⟩ := Outcome.bind_eq_ok.1 imports
  rw [importTable, started, runtime_names_editing]
  rw [← Except.ok.inj rest]
  dsimp only [bind, Except.bind]
  rw [List.foldl_append]
  split
  · rfl
  · rfl

theorem component_imported {page : NodeId} {options : CompileOptions} {table : ImportTable}
    (imports : importTable document page catalog options = .ok table) {element : Node}
    (member : element ∈ document.markupElements page) {definition : ComponentDefinition}
    (known : definition? catalog element = some definition) :
    ∃ localName,
      table.Aliased (.named definition.source definition.exported) localName := by
  obtain ⟨start, started, rest⟩ := Outcome.bind_eq_ok.1 imports
  rw [← Except.ok.inj rest]
  obtain ⟨before, after, listed⟩ := List.append_of_mem member
  rw [listed, List.foldl_append, List.foldl_cons]
  generalize before.foldl (importComponent catalog) start = middle
  obtain ⟨localName, held⟩ := middle.aliased_import_named definition.source definition.exported
  have here : (importComponent catalog middle element).Aliased
      (.named definition.source definition.exported) localName := by
    rw [importComponent, known]
    exact held
  refine ⟨localName, ?_⟩
  apply runtime_keeps (ImportTable.Aliased _ _) fun source name held =>
    held.import_named source name
  apply components_keep (ImportTable.Aliased _ _) fun source name held =>
    held.import_named source name
  exact here

theorem alias_or_of_aliased {table : ImportTable} {source name localName : String}
    (held : table.Aliased (.named source name) localName) :
    aliasOr table source name = localName := by
  rw [aliasOr, show table.aliasOf? source name = some localName from held, Option.getD_some]

/-- The imports of a module for the editor beside those of the module without markers. -/
structure MarkerTable (runtime : String) (editor plain : ImportTable) : Prop where
  kept : ∀ {imported : Import} {localName : String}, plain.Aliased imported localName →
    editor.Aliased imported localName
  others : ∀ {imported : Import}, imported ≠ .named runtime RuntimeName.nodeMarker.text →
    editor.alias? imported = plain.alias? imported
  text : plain.render =
    if (markerAlias? plain runtime).isSome then editor.render
    else (editor.dropNamed runtime RuntimeName.nodeMarker.text).render

theorem MarkerTable.refl (runtime : String) (table : ImportTable) :
    MarkerTable runtime table table := by
  refine ⟨id, fun _ => rfl, ?_⟩
  split
  · rfl
  · rename_i unknown
    exact (ImportTable.render_drop_unknown (by simpa [markerAlias?] using unknown)).symm

theorem MarkerTable.alias_or_eq {editor plain : ImportTable}
    (tables : MarkerTable runtime editor plain) {source name : String}
    (other : ¬(source = runtime ∧ name = RuntimeName.nodeMarker.text)) :
    aliasOr editor source name = aliasOr plain source name := by
  have same := @tables.others (.named source name) fun equal =>
    other (Import.named.inj equal)
  rw [aliasOr, aliasOr]
  exact congrArg (Option.getD · name) same

def withMarker (plain : ImportTable) (runtime : String) : ImportTable :=
  let marker := plain.scope.freshName RuntimeName.nodeMarker.text
  { plain with scope := plain.scope.bind marker }.recordNamed runtime
    RuntimeName.nodeMarker.text marker

theorem alias_with_marker (plain : ImportTable) (runtime : String) (imported : Import) :
    (withMarker plain runtime).alias? imported =
      if imported = .named runtime RuntimeName.nodeMarker.text then
        some (plain.scope.freshName RuntimeName.nodeMarker.text)
      else plain.alias? imported := by
  rw [withMarker, ImportTable.alias_record_named]
  cases imported with
  | named source name => rfl
  | whole source => rfl

theorem marker_of_new (plain : ImportTable) (runtime : String) :
    markerAlias? (withMarker plain runtime) runtime =
      some (plain.scope.freshName RuntimeName.nodeMarker.text) := by
  have held := alias_with_marker plain runtime (.named runtime RuntimeName.nodeMarker.text)
  rwa [if_pos rfl] at held

theorem MarkerTable.of_new {plain : ImportTable} (unknown : markerAlias? plain runtime = none) :
    MarkerTable runtime (withMarker plain runtime) plain := by
  refine ⟨?_, ?_, ?_⟩
  · intro imported localName known
    rw [ImportTable.Aliased, alias_with_marker, if_neg]
    · exact known
    · intro same
      rw [same] at known
      exact absurd (unknown.symm.trans known) (by simp)
  · intro imported other
    rw [alias_with_marker, if_neg other]
  · rw [unknown]
    exact (@ImportTable.render_drop_recorded
      { plain with scope := plain.scope.bind (plain.scope.freshName RuntimeName.nodeMarker.text) }
      _ _ unknown _).symm

theorem import_table_cases {page : NodeId} {plain editor : ImportTable}
    (without : importTable document page catalog (production runtime) = .ok plain)
    (markers : importTable document page catalog (editing runtime) = .ok editor) :
    MarkerTable runtime editor plain ∧
      (editor = plain ∨ ∃ marker, markerAlias? editor runtime = some marker ∧
        plain.scope.Wider marker editor.scope) := by
  rw [import_table_editing without] at markers
  have same := Except.ok.inj markers
  split at same
  · rw [← same]
    exact ⟨.refl runtime plain, Or.inl rfl⟩
  · rcases plain.import_named_cases runtime RuntimeName.nodeMarker.text with
      ⟨localName, known, kept⟩ | ⟨unknown, added⟩
    · rw [← same, kept]
      exact ⟨.refl runtime plain, Or.inl rfl⟩
    · rw [← same, added]
      exact ⟨.of_new unknown, Or.inr ⟨_, marker_of_new plain runtime, .of_bind plain.scope _⟩⟩

end PageCompiler

namespace Document

open PageCompiler

variable {document : Document} {catalog : Catalog} {runtime : String} {page : Node}

theorem declared_wider {marker : String} {plain editor : ImportTable}
    (wider : plain.scope.Wider marker editor.scope) (apart : (declared plain page).1 ≠ marker) :
    (declared editor page).1 = (declared plain page).1 ∧
      (declared plain page).2.scope.Wider marker (declared editor page).2.scope := by
  have name : editor.scope.freshName (ComponentName.ofPageName page.name) =
      plain.scope.freshName (ComponentName.ofPageName page.name) := wider.fresh_name_eq apart
  refine ⟨name, ?_⟩
  have scope (table : ImportTable) : (declared table page).2.scope =
      table.scope.bind (table.scope.freshName (ComponentName.ofPageName page.name)) := rfl
  rw [scope, scope, name]
  exact wider.bind _

/-- State gets the same names in a scope that shows one more, unless it has that one. -/
theorem bindings_wider (holds : document.HoldsPage page) {schema : PropSchema} {marker : String}
    {narrow wide : Scope} (wider : narrow.Wider marker wide) {bindings : PageBindings}
    (resolved : document.bindings page.id schema narrow = .ok bindings)
    (apart : marker ∉ bindings.declarations.flatMap fun declaration => declaration.names.all) :
    ∃ scope, document.bindings page.id schema wide = .ok { bindings with scope } ∧
      bindings.scope.Wider marker scope := by
  have found : document.nodeOfType page.id .page = .ok page :=
    node_of_type_ok.2 ⟨holds.found, holds.type⟩
  rw [Document.bindings, found] at resolved ⊢
  dsimp only at resolved ⊢
  rw [PageView.bindings] at resolved ⊢
  cases ended : (PageView.of document page schema).graph.order with
  | error cycle =>
      rw [ended] at resolved
      cases resolved
  | ok order =>
      rw [ended] at resolved
      have given := @given_declared document page schema order holds narrow ended
      cases resolved
      dsimp only at apart ⊢
      have free : marker ∉
          (PageNames.ofView (PageView.of document page schema) narrow).allGiven := by
        intro member
        obtain ⟨⟨owner, names⟩, listed, inside⟩ := List.mem_flatMap.1 member
        obtain ⟨declaration, declared, same⟩ := given listed
        exact apart (List.mem_flatMap.2 ⟨declaration, declared, same ▸ inside⟩)
      obtain ⟨same, next⟩ := PageNames.of_view_wider wider free
      refine ⟨_, ?_, next⟩
      generalize PageNames.ofView (PageView.of document page schema) narrow = names at same
      generalize PageNames.ofView (PageView.of document page schema) wide = others at same
      obtain ⟨scope, given⟩ := names
      obtain ⟨other, again⟩ := others
      cases same
      rfl

theorem bindings_diagnostics (found : document.nodeOfType page.id .page = .ok page)
    {schema : PropSchema} {scope : Scope} {bindings : PageBindings}
    (resolved : document.bindings page.id schema scope = .ok bindings) :
    bindings.diagnostics = (PageView.of document page schema).diagnostics := by
  rw [Document.bindings, found] at resolved
  dsimp only at resolved
  rw [PageView.bindings] at resolved
  split at resolved
  · cases resolved
  · cases resolved
    rfl

/-- What the plan for the editor has in common with the one without markers. -/
structure SamePlan (runtime : String) (editor plain : Plan) : Prop where
  page : editor.page = plain.page
  imports : MarkerTable runtime editor.imports plain.imports
  diagnostics : editor.bindings.diagnostics = plain.bindings.diagnostics
  component : editor.component = plain.component ↔
    markerAlias? editor.imports runtime ≠ some plain.component
  names : (∀ marker, markerAlias? editor.imports runtime = some marker → marker ∉ plain.ownNames) →
    editor.component = plain.component ∧ editor.pageScope = plain.pageScope ∧
      ∃ scope, editor.bindings = { plain.bindings with scope }

theorem plans_agree (holds : document.HoldsPage page) {editor plain : Plan}
    (without : PageCompiler.plan document page catalog (production runtime) = .ok plain)
    (markers : PageCompiler.plan document page catalog (editing runtime) = .ok editor) :
    SamePlan runtime editor plain := by
  have found : document.nodeOfType page.id .page = .ok page :=
    node_of_type_ok.2 ⟨holds.found, holds.type⟩
  have own := (plan_page markers).trans (plan_page without).symm
  obtain ⟨table, imported⟩ := import_table_ok document page.id catalog (production runtime)
  obtain ⟨other, marked⟩ := import_table_ok document page.id catalog (editing runtime)
  rw [plan_eq imported] at without
  rw [plan_eq marked] at markers
  obtain ⟨bindings, resolved, same⟩ := Outcome.bind_eq_ok.1 without
  obtain ⟨again, repeated, alike⟩ := Outcome.bind_eq_ok.1 markers
  have resolved := Outcome.map_error_eq_ok.1 resolved
  have repeated := Outcome.map_error_eq_ok.1 repeated
  obtain ⟨tables, scopes⟩ := import_table_cases imported marked
  have sound := import_table_sound marked
  cases same
  cases alike
  constructor
  case page => exact own
  case imports => exact ⟨tables.kept, tables.others, tables.text⟩
  case diagnostics =>
    exact (bindings_diagnostics found repeated).trans (bindings_diagnostics found resolved).symm
  case component =>
    -- A component is never named as an import: its name is chosen with all aliases in scope.
    constructor
    · intro same taken
      dsimp only at same taken
      have held : other.alias? (.named runtime RuntimeName.nodeMarker.text) =
          some (declared table page).1 := taken
      have bound := sound.bound held
      rw [← same] at bound
      exact other.scope.fresh_name_not_visible _ bound
    · intro free
      rcases scopes with rfl | ⟨marker, held, wider⟩
      · rfl
      · exact (declared_wider wider fun same => free (held.trans (congrArg some same.symm))).1
  case names =>
    -- Names are given in the order component, state, scope of the scripts. Each of them is the same
    -- in both scopes, and leaves one of them wider by the marker alone.
    intro apart
    rcases scopes with rfl | ⟨marker, held, wider⟩
    · rw [resolved] at repeated
      cases repeated
      exact ⟨rfl, rfl, bindings.scope, rfl⟩
    · have free := apart marker held
      rw [Plan.ownNames, List.mem_append, List.mem_append, not_or, not_or] at free
      obtain ⟨⟨component, state⟩, scripts⟩ := free
      obtain ⟨name, next⟩ := declared_wider wider fun same =>
        component (List.mem_singleton.2 same.symm)
      obtain ⟨scope, found, last⟩ := bindings_wider holds next.below resolved state
      rw [found] at repeated
      cases repeated
      refine ⟨name, ?_, scope, rfl⟩
      dsimp only at scripts ⊢
      split
      · rename_i runs
        rw [if_pos runs] at scripts
        rw [last.fresh_name_eq fun same => scripts (List.mem_singleton.2 same.symm)]
      · rfl

/-- An element without a component shows the component without a name, if there is one, but imports
nothing for it. That one is not the marker. -/
def UnnamedApart (catalog : Catalog) (runtime : String) : Prop :=
  ∀ definition, catalog.find? "" = some definition →
    ¬(definition.source = runtime ∧ definition.exported = RuntimeName.nodeMarker.text)

/-- A module for the editor and the one without markers. Without the specifier of the marker, which
stays if the page itself shows the marker as a component, the imports are the same, and the rest is
without the markers, one for each of `nodes`. -/
def AddsMarkers (runtime : String) (editor plain : Plan) (nodes : Multiset String)
    (marked source : String) : Prop :=
  ∃ wrapped code, marked = editor.imports.render ++ wrapped ∧
    source =
      (if (markerAlias? plain.imports runtime).isSome then editor.imports.render
        else (editor.imports.dropNamed runtime RuntimeName.nodeMarker.text).render) ++ code ∧
    Code.Wraps (aliasOr editor.imports runtime RuntimeName.nodeMarker.text) nodes wrapped code

theorem plan_table {options : CompileOptions} {plan : Plan}
    (planned : PageCompiler.plan document page catalog options = .ok plan) :
    ∃ table, importTable document page.id catalog options = .ok table ∧
      plan.imports = (declared table page).2 := by
  obtain ⟨table, imports⟩ := import_table_ok document page.id catalog options
  rw [plan_eq imports] at planned
  obtain ⟨_, _, same⟩ := Outcome.bind_eq_ok.1 planned
  cases same
  exact ⟨table, imports, rfl⟩

theorem alias_declared (table : ImportTable) (page : Node) (imported : Import) :
    (declared table page).2.alias? imported = table.alias? imported := by
  cases imported with
  | named source name => rfl
  | whole source => rfl

theorem marker_unbroken {options : CompileOptions} {plan : Plan}
    (planned : PageCompiler.plan document page catalog options = .ok plan) (runtime : String) :
    '\n' ∉ (aliasOr plan.imports runtime RuntimeName.nodeMarker.text).toList := by
  obtain ⟨table, imports, same⟩ := plan_table planned
  have sound := import_table_sound imports
  intro feed
  rw [same] at feed
  cases held : table.alias? (.named runtime RuntimeName.nodeMarker.text) with
  | none =>
      rw [← alias_declared table page] at held
      rw [aliasOr, show (declared table page).2.aliasOf? _ _ = none from held] at feed
      exact absurd feed (by decide)
  | some marker =>
      have part : Identifier.isPart '\n' = true := by
        apply Identifier.is_part_of_valid (sound.usable held).valid
        rw [← alias_declared table page] at held
        rwa [alias_or_of_aliased held] at feed
      exact absurd part (by decide)

theorem same_alias {editor plain : Plan} (same : SamePlan runtime editor plain)
    (without : PageCompiler.plan document page catalog (production runtime) = .ok plain)
    (apart : UnnamedApart catalog runtime) {element : Node}
    (member : element ∈ document.markupElements page.id) {definition : ComponentDefinition}
    (shown : catalog.find? (element.component?.getD "") = some definition) :
    aliasOr editor.imports definition.source definition.exported =
      aliasOr plain.imports definition.source definition.exported := by
  cases component : element.component? with
  | none =>
      rw [component] at shown
      exact same.imports.alias_or_eq (apart definition shown)
  | some name =>
      have known : definition? catalog element = some definition := by
        rw [definition?, component]
        rwa [component] at shown
      obtain ⟨table, imports, declares⟩ := plan_table without
      obtain ⟨localName, held⟩ := component_imported imports member known
      rw [ImportTable.Aliased, ← alias_declared table page, ← declares] at held
      rw [alias_or_of_aliased held, alias_or_of_aliased (same.imports.kept held)]

theorem hooks_eq {editor plain : Plan} (same : SamePlan runtime editor plain) :
    editor.hooks (editing runtime) = plain.hooks (production runtime) := by
  have react : editor.imports.wholeOf? reactModule = plain.imports.wholeOf? reactModule :=
    @MarkerTable.others _ _ _ same.imports (.whole reactModule) (by simp)
  have query : aliasOr editor.imports runtime RuntimeName.useDataQuery.text =
      aliasOr plain.imports runtime RuntimeName.useDataQuery.text :=
    same.imports.alias_or_eq (by simp [RuntimeName.text])
  have fetched : aliasOr editor.imports runtime RuntimeName.useFetchedState.text =
      aliasOr plain.imports runtime RuntimeName.useFetchedState.text :=
    same.imports.alias_or_eq (by simp [RuntimeName.text])
  unfold Plan.hooks
  rw [react]
  exact congrArg₂ (Code.Hooks.mk _) query fetched

theorem marker_only {editor plain : Plan} (same : SamePlan runtime editor plain)
    (markers : PageCompiler.plan document page catalog (editing runtime) = .ok editor)
    (pageScope : editor.pageScope = plain.pageScope)
    (props : editor.bindings.props = plain.bindings.props) :
    MarkerOnly (aliasOr editor.imports runtime RuntimeName.nodeMarker.text)
      (editor.context document catalog (editing runtime))
      (plain.context document catalog (production runtime)) where
  document := rfl
  props := props
  catalog := rfl
  react := congrArg Code.Hooks.react (hooks_eq same)
  evaluate := same.imports.alias_or_eq (by simp [RuntimeName.text])
  pageScope := congrArg (Option.getD · "\x7b\x7d") pageScope
  on := rfl
  off := rfl
  unbroken := marker_unbroken markers runtime

/-- Up to the import of the marker and the markers themselves the modules are the same. -/
theorem sources_wrap {editor plain : Plan} (same : SamePlan runtime editor plain)
    (without : PageCompiler.plan document page catalog (production runtime) = .ok plain)
    (markers : PageCompiler.plan document page catalog (editing runtime) = .ok editor)
    (apart : ∀ marker, markerAlias? editor.imports runtime = some marker →
      marker ∉ plain.ownNames)
    (unnamed : UnnamedApart catalog runtime) :
    AddsMarkers runtime editor plain (idsOf (document.markupElements page.id))
      (editor.rawSource document catalog (editing runtime))
      (plain.rawSource document catalog (production runtime)) := by
  obtain ⟨component, pageScope, scope, bindings⟩ := same.names apart
  have props : editor.bindings.props = plain.bindings.props := by rw [bindings]
  have only := marker_only same markers pageScope props
  have fragments : Code.WrappedFragments
      (aliasOr editor.imports runtime RuntimeName.nodeMarker.text)
      (idsOf (document.markupElements page.id))
      (editor.roots document catalog (editing runtime))
      (plain.roots document catalog (production runtime)) := by
    rw [Plan.roots, Plan.roots, plan_page markers, plan_page without]
    apply only.elements
    intro element member definition known
    exact same_alias same without unnamed member known
  -- The bindings agree up to the scope, which served to give the names and is not written.
  have code (bindings : PageBindings) (scope : Scope) (roots : List String) :
      moduleCode plain.component { bindings with scope } (plain.hooks (production runtime))
          plain.pageScope roots =
        moduleCode plain.component bindings (plain.hooks (production runtime)) plain.pageScope
          roots := rfl
  refine ⟨_, _, raw_source_behind editor document catalog (editing runtime), ?_,
    module_code_wraps fragments _ _ _ _⟩
  rw [raw_source_behind, same.imports.text, component, hooks_eq same, pageScope, bindings]
  exact congrArg _ (code plain.bindings scope _).symm

/-- Editor mode adds the markers of the elements and the import of the marker, and changes nothing
else about a page, unless a name in the module without markers is the alias that the marker takes:
the marker is imported before the names of the page are given. The name of the component stays
exactly if it is another one. -/
theorem editor_mode_adds_markers (valid : document.Valid) (id : NodeId) (catalog : Catalog)
    (runtime : String) :
    (∀ fault, document.compilePage id catalog (editing runtime) = .error fault ↔
      document.compilePage id catalog (production runtime) = .error fault) ∧
    ∀ marked plain, document.compilePage id catalog (editing runtime) = .ok marked →
      document.compilePage id catalog (production runtime) = .ok plain →
      marked.page = plain.page ∧ marked.name = plain.name ∧
      marked.diagnostics = plain.diagnostics ∧
      ∃ page editor plan, document.nodeOfType id .page = .ok page ∧
        PageCompiler.plan document page catalog (editing runtime) = .ok editor ∧
        PageCompiler.plan document page catalog (production runtime) = .ok plan ∧
        (marked.component = plain.component ↔
          markerAlias? editor.imports runtime ≠ some plain.component) ∧
        ((∀ marker, markerAlias? editor.imports runtime = some marker → marker ∉ plan.ownNames) →
          UnnamedApart catalog runtime →
          AddsMarkers runtime editor plan (idsOf (document.markupElements id)) marked.source
            plain.source) := by
  refine ⟨?_, ?_⟩
  · intro fault
    exact compile_page_error_congr valid
  · intro marked plain edited shipped
    obtain ⟨page, editor, found, markers, rfl⟩ := compile_page_ok edited
    obtain ⟨other, plan, again, without, rfl⟩ := compile_page_ok shipped
    rw [found] at again
    cases again
    obtain ⟨holds, own⟩ := holds_page valid found
    have same := plans_agree holds without markers
    have diagnostics (options : CompileOptions) (raw : options.pretty = false) (plan : Plan) :
        (written document catalog options plan).diagnostics =
          (document.markupElements plan.page.id).filterMap (unknownComponent? catalog) ++
            plan.bindings.diagnostics := by
      rw [written, finish, raw]
      exact List.append_nil _
    refine ⟨congrArg Node.id same.page, congrArg Node.name same.page, ?_, page, editor, plan, found,
      markers, without, same.component, ?_⟩
    · rw [diagnostics _ rfl, diagnostics _ rfl, same.page, same.diagnostics]
    · intro apart unnamed
      have wraps := sources_wrap same without markers apart unnamed
      rw [own] at wraps
      exact wraps

def elementPage (name : String) : Document :=
  let page : Node := ⟨"p", name, none, .empty, .page .empty⟩
  let element : Node := ⟨"t", "t", none, .ofList [("component", .constString "T")],
    .element .empty⟩
  (ofRoot "r").run [.addNode page "r" "pages" none, .addNode element "p" "children" none]

theorem element_page_valid (name : String) : (elementPage name).Valid :=
  valid_run (valid_of_root "r") _

theorem editor_mode_adds_markers_sample :
    (elementPage "home").Valid ∧ ∃ marked plain imports wrapped code,
      (elementPage "home").compilePage "p" oneComponent (editing "m") = .ok marked ∧
      (elementPage "home").compilePage "p" oneComponent (production "m") = .ok plain ∧
      marked.component = plain.component ∧
      marked.source = ImportTable.render imports ++ wrapped ∧
      plain.source = (imports.dropNamed "m" "NodeMarker").render ++ code ∧
      Code.Wraps "NodeMarker" {"t"} wrapped code := by
  have edited : ((elementPage "home").compilePage "p" oneComponent (editing "m")).map
      CompiledPage.component = .ok "Home" := by
    decide +kernel
  have shipped : ((elementPage "home").compilePage "p" oneComponent (production "m")).map
      CompiledPage.component = .ok "Home" := by
    decide +kernel
  obtain ⟨marked, edited, first⟩ := Outcome.map_eq_ok.1 edited
  obtain ⟨plain, shipped, second⟩ := Outcome.map_eq_ok.1 shipped
  obtain ⟨_, _, _, page, editor, plan, found, markers, without, _, sources⟩ :=
    (editor_mode_adds_markers (element_page_valid "home") "p" oneComponent "m").2 marked plain
      edited shipped
  have taken : ((elementPage "home").nodeOfType "p" .page).toOption.bind (fun page =>
      (PageCompiler.plan (elementPage "home") page oneComponent (editing "m")).toOption.bind
        fun editor => markerAlias? editor.imports "m") = some "NodeMarker" := by
    decide +kernel
  have own : ((elementPage "home").nodeOfType "p" .page).toOption.bind (fun page =>
      (PageCompiler.plan (elementPage "home") page oneComponent (production "m")).toOption.map
        fun plan => (plan.ownNames, markerAlias? plan.imports "m")) = some (["Home"], none) := by
    decide +kernel
  rw [found, Except.toOption, Option.bind_some, markers, Except.toOption, Option.bind_some]
    at taken
  rw [found, Except.toOption, Option.bind_some, without, Except.toOption, Option.map_some,
    Option.some.injEq, Prod.mk.injEq] at own
  have imported : editor.imports.aliasOf? "m" RuntimeName.nodeMarker.text = some "NodeMarker" :=
    taken
  have shown : ((elementPage "home").markupElements "p").map Node.id = ["t"] := by
    decide +kernel
  have unnamed : UnnamedApart oneComponent "m" := by
    have unlisted : (oneComponent.find? "").isSome = false := by decide +kernel
    intro definition held
    rw [held] at unlisted
    cases unlisted
  have apart : ∀ marker, markerAlias? editor.imports "m" = some marker →
      marker ∉ plan.ownNames := by
    intro marker held
    rw [taken] at held
    rw [← Option.some.inj held, own.1]
    decide
  obtain ⟨wrapped, code, source, other, wraps⟩ := sources apart unnamed
  rw [own.2] at other
  rw [aliasOr, imported, idsOf, shown] at wraps
  exact ⟨element_page_valid "home", marked, plain, editor.imports, wrapped, code, edited, shipped,
    first.trans second.symm, source, other, wraps⟩

/-- The marker takes its name before the component of the page does. -/
theorem marker_takes_component_name :
    ¬ ∀ (document : Document) (catalog : Catalog) (runtime : String) (id : NodeId)
      (marked plain : CompiledPage), document.Valid →
      document.compilePage id catalog (editing runtime) = .ok marked →
      document.compilePage id catalog (production runtime) = .ok plain →
      marked.component = plain.component := by
  intro always
  have edited : ((elementPage "NodeMarker").compilePage "p" oneComponent (editing "r")).map
      CompiledPage.component = .ok "NodeMarker1" := by
    decide +kernel
  have shipped : ((elementPage "NodeMarker").compilePage "p" oneComponent (production "r")).map
      CompiledPage.component = .ok "NodeMarker" := by
    decide +kernel
  obtain ⟨marked, edited, first⟩ := Outcome.map_eq_ok.1 edited
  obtain ⟨plain, shipped, second⟩ := Outcome.map_eq_ok.1 shipped
  have same := always _ oneComponent "r" "p" marked plain (element_page_valid "NodeMarker") edited
    shipped
  rw [first, second] at same
  exact absurd same (by decide)

end Document

end PageBuilder
