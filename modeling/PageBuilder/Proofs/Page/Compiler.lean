import PageBuilder.Page.Compiler
import PageBuilder.Proofs.ImportTable
import PageBuilder.Proofs.Page.Bindings

/-!
Compiling a page fails for two reasons only, and neither has to do with how its module is written:
the page is not there, or its state reads itself. In the module of a page no name is bound twice.
-/

namespace PageBuilder

open Relation (TransGen)

namespace PageCompiler

theorem start_table_eq : startTable = .ok
    ({ ImportTable.ofScope Scope.root with scope := Scope.root.bind reactAlias }.recordWhole
      reactModule reactAlias) := by
  have free : Scope.root.reserve? reactAlias = some (Scope.root.bind reactAlias) := by
    rw [Scope.reserve?, if_neg (by decide)]
  rw [startTable, ImportTable.importWhole]
  have unknown : (ImportTable.ofScope Scope.root).wholeOf? reactModule = none := rfl
  rw [unknown]
  dsimp only
  rw [ImportTable.bindAlias]
  have unused : (ImportTable.ofScope Scope.root).aliases.get? reactAlias = none := rfl
  rw [unused]
  dsimp only
  have scope : (ImportTable.ofScope Scope.root).scope = Scope.root := rfl
  rw [scope, free]
  rfl

theorem import_table_ok (document : Document) (page : NodeId) (catalog : Catalog)
    (options : CompileOptions) :
    ∃ table, importTable document page catalog options = .ok table := by
  rw [importTable, start_table_eq]
  exact ⟨_, rfl⟩

theorem start_table_sound {table : ImportTable} (started : startTable = .ok table) :
    table.Sound := by
  rw [start_table_eq] at started
  cases started
  have only {imported : Import} {localName : String}
      (found : ({ ImportTable.ofScope Scope.root with
        scope := Scope.root.bind reactAlias }.recordWhole reactModule reactAlias).alias? imported =
          some localName) :
      imported = .whole reactModule ∧ localName = reactAlias := by
    rw [ImportTable.alias_record_whole] at found
    split at found
    · rename_i same
      exact ⟨same, (Option.some.inj found).symm⟩
    · cases imported with
      | named source name => cases found
      | whole source => cases found
  refine ⟨?_, ?_, ?_⟩
  · intro left right localName first second
    rw [(only first).1, (only second).1]
  · intro imported localName found
    rw [(only found).2]
    exact List.mem_cons_self
  · intro imported localName found
    rw [(only found).2]
    exact ⟨by decide, by decide⟩

theorem components_keep (holds : ImportTable → Prop)
    (step : ∀ {table : ImportTable} (source name : String), holds table →
      holds (table.importNamed source name).2)
    (catalog : Catalog) (elements : List Node) {table : ImportTable} (start : holds table) :
    holds (elements.foldl (importComponent catalog) table) := by
  induction elements generalizing table with
  | nil => exact start
  | cons element rest ih =>
      apply ih
      rw [importComponent]
      split
      · exact step _ _ start
      · exact start

theorem runtime_keeps (holds : ImportTable → Prop)
    (step : ∀ {table : ImportTable} (source name : String), holds table →
      holds (table.importNamed source name).2)
    (options : CompileOptions) (names : List RuntimeName) {table : ImportTable}
    (start : holds table) : holds (names.foldl (importRuntime options) table) := by
  induction names generalizing table with
  | nil => exact start
  | cons name rest ih => exact ih (step _ _ start)

theorem import_table_sound {document : Document} {page : NodeId} {catalog : Catalog}
    {options : CompileOptions} {table : ImportTable}
    (imports : importTable document page catalog options = .ok table) : table.Sound := by
  obtain ⟨start, started, rest⟩ := Outcome.bind_eq_ok.1 imports
  rw [← Except.ok.inj rest]
  apply runtime_keeps ImportTable.Sound fun source name sound => sound.import_named source name
  apply components_keep ImportTable.Sound fun source name sound => sound.import_named source name
  exact start_table_sound started

/-- All that the module of a page binds: its imports, its component, its state, and the object for
scripts. -/
def Plan.boundNames (plan : Plan) : List String :=
  plan.imports.localNames ++ [plan.component]
    ++ (plan.bindings.declarations.flatMap fun declaration => declaration.names.all)
    ++ plan.pageScope.toList

end PageCompiler

namespace Document

open PageCompiler

variable {document : Document} {catalog : Catalog}

def cycleFault (view : PageView) (cycle : ReadCycle StateKey) : PageFault :=
  .cycle (cycle.labelled view.label)

theorem bindings_error_iff {page : Node} {id : NodeId} {schema : PropSchema} {scope : Scope}
    (found : document.nodeOfType id .page = .ok page) {fault : PageFault} :
    document.bindings id schema scope = .error fault ↔
      ∃ cycle, (PageView.of document page schema).graph.order = .error cycle ∧
        fault = cycleFault (PageView.of document page schema) cycle := by
  rw [Document.bindings, found]
  dsimp only
  rw [PageView.bindings]
  cases (PageView.of document page schema).graph.order with
  | ok order =>
      constructor
      · intro failed
        cases failed
      · intro failed
        obtain ⟨cycle, failure, _⟩ := failed
        cases failure
  | error cycle =>
      constructor
      · intro failed
        cases failed
        exact ⟨cycle, rfl, rfl⟩
      · intro failed
        obtain ⟨other, failure, rfl⟩ := failed
        cases failure
        rfl

def declared (table : ImportTable) (page : Node) : String × ImportTable :=
  table.declare (ComponentName.ofPageName page.name)

/-- The names of a module in the order in which they are found. -/
theorem plan_eq {page : Node} {options : CompileOptions} {table : ImportTable}
    (imports : importTable document page.id catalog options = .ok table) :
    PageCompiler.plan document page catalog options =
      (document.bindings page.id catalog.schema (declared table page).2.scope.below).mapError
          .page >>= fun bindings =>
        .ok ⟨page, (declared table page).2, (declared table page).1, bindings,
          if bindings.usesRuntime then some (bindings.scope.freshName "pageScope") else none⟩ := by
  rw [PageCompiler.plan, imports]
  rfl

theorem plan_error_iff {page : Node} {options : CompileOptions}
    (found : document.nodeOfType page.id .page = .ok page) {fault : CompileFault} :
    PageCompiler.plan document page catalog options = .error fault ↔
      ∃ cycle, (PageView.of document page catalog.schema).graph.order = .error cycle ∧
        fault = .page (cycleFault (PageView.of document page catalog.schema) cycle) := by
  obtain ⟨table, imports⟩ := import_table_ok document page.id catalog options
  rw [plan_eq imports, Outcome.bind_eq_error, Outcome.map_error_eq_error]
  constructor
  · intro failed
    rcases failed with early | late
    · obtain ⟨pageFault, failure, rfl⟩ := early
      obtain ⟨cycle, ended, rfl⟩ := (bindings_error_iff found).1 failure
      exact ⟨cycle, ended, rfl⟩
    · obtain ⟨_, _, absurd⟩ := late
      cases absurd
  · intro failed
    obtain ⟨cycle, ended, rfl⟩ := failed
    exact Or.inl ⟨_, (bindings_error_iff found).2 ⟨cycle, ended, rfl⟩, rfl⟩

def written (document : Document) (catalog : Catalog) (options : CompileOptions) (plan : Plan) :
    CompiledPage :=
  let text := finish options (plan.rawSource document catalog options)
  { page := plan.page.id
    name := plan.page.name
    component := plan.component
    source := text.1
    diagnostics :=
      (document.markupElements plan.page.id).filterMap (unknownComponent? catalog)
        ++ plan.bindings.diagnostics ++ text.2 }

theorem plan_page {page : Node} {options : CompileOptions} {plan : Plan}
    (planned : PageCompiler.plan document page catalog options = .ok plan) : plan.page = page := by
  obtain ⟨table, imports⟩ := import_table_ok document page.id catalog options
  rw [plan_eq imports] at planned
  obtain ⟨_, _, same⟩ := Outcome.bind_eq_ok.1 planned
  cases same
  rfl

theorem compile_page_eq (document : Document) (id : NodeId) (catalog : Catalog)
    (options : CompileOptions) :
    document.compilePage id catalog options =
      (document.nodeOfType id .page).mapError (fun fault => .page (.lookup fault)) >>= fun page =>
        (PageCompiler.plan document page catalog options).map
          (written document catalog options) := by
  rw [compilePage]
  cases document.nodeOfType id .page with
  | error lookup => rfl
  | ok page =>
      rw [Outcome.map_error_ok]
      dsimp only [bind, Except.bind]
      cases planned : PageCompiler.plan document page catalog options with
      | error fault => rfl
      | ok plan =>
          have same := plan_page planned
          dsimp only [Except.map, bind, Except.bind]
          rw [written, same]

/-- A page that compiles has a plan, and the result is what is written from it. -/
theorem compile_page_ok {id : NodeId} {options : CompileOptions} {compiled : CompiledPage}
    (done : document.compilePage id catalog options = .ok compiled) :
    ∃ page plan, document.nodeOfType id .page = .ok page ∧
      PageCompiler.plan document page catalog options = .ok plan ∧
      written document catalog options plan = compiled := by
  rw [compile_page_eq] at done
  obtain ⟨page, found, rest⟩ := Outcome.bind_eq_ok.1 done
  obtain ⟨plan, planned, same⟩ := Outcome.map_eq_ok.1 rest
  exact ⟨page, plan, Outcome.map_error_eq_ok.1 found, planned, same⟩

/-- Compiling fails with what is wrong with the page, and with nothing else. -/
theorem compile_page_error_iff (valid : document.Valid) {id : NodeId} {options : CompileOptions}
    {fault : CompileFault} :
    document.compilePage id catalog options = .error fault ↔
      (∃ lookup, document.nodeOfType id .page = .error lookup ∧ fault = .page (.lookup lookup)) ∨
        ∃ page cycle, document.nodeOfType id .page = .ok page ∧
          (PageView.of document page catalog.schema).graph.order = .error cycle ∧
          fault = .page (cycleFault (PageView.of document page catalog.schema) cycle) := by
  rw [compile_page_eq, Outcome.bind_eq_error, Outcome.map_error_eq_error]
  constructor
  · intro failed
    rcases failed with early | late
    · obtain ⟨lookup, failure, rfl⟩ := early
      exact Or.inl ⟨lookup, failure, rfl⟩
    · obtain ⟨page, found, failure⟩ := late
      have found := Outcome.map_error_eq_ok.1 found
      have here : document.nodeOfType page.id .page = .ok page := by
        rw [(holds_page valid found).2, found]
      obtain ⟨cycle, ended, rfl⟩ := (plan_error_iff here).1 (Outcome.map_eq_error.1 failure)
      exact Or.inr ⟨page, cycle, found, ended, rfl⟩
  · intro failed
    rcases failed with early | late
    · obtain ⟨lookup, failure, rfl⟩ := early
      exact Or.inl ⟨lookup, failure, rfl⟩
    · obtain ⟨page, cycle, found, ended, rfl⟩ := late
      have here : document.nodeOfType page.id .page = .ok page := by
        rw [(holds_page valid found).2, found]
      refine Or.inr ⟨page, Outcome.map_error_eq_ok.2 found, ?_⟩
      exact Outcome.map_eq_error.2 ((plan_error_iff here).2 ⟨cycle, ended, rfl⟩)

/-- How a module is to be written has no say in whether and why there is none. -/
theorem compile_page_error_congr (valid : document.Valid) {id : NodeId}
    {options other : CompileOptions} {fault : CompileFault} :
    document.compilePage id catalog options = .error fault ↔
      document.compilePage id catalog other = .error fault := by
  rw [compile_page_error_iff valid, compile_page_error_iff valid]

theorem node_of_type_fails_iff {id : NodeId} {type : NodeType} :
    (∃ fault, document.nodeOfType id type = .error fault) ↔
      ¬∃ node, document.get? id = some node ∧ node.type = type := by
  cases found : document.nodeOfType id type with
  | ok node =>
      have held := node_of_type_ok.1 found
      constructor
      · intro failed
        obtain ⟨fault, same⟩ := failed
        cases same
      · exact fun missing => absurd ⟨node, held⟩ missing
  | error fault =>
      constructor
      · intro _ held
        obtain ⟨node, held⟩ := held
        rw [node_of_type_ok.2 held] at found
        cases found
      · exact fun _ => ⟨fault, rfl⟩

theorem compile_page_lookup_iff (valid : document.Valid) {id : NodeId} {options : CompileOptions} :
    (∃ lookup, document.compilePage id catalog options = .error (.page (.lookup lookup))) ↔
      ∃ lookup, document.nodeOfType id .page = .error lookup := by
  constructor
  · intro failed
    obtain ⟨lookup, failed⟩ := failed
    rcases (compile_page_error_iff valid).1 failed with early | late
    · obtain ⟨fault, failure, _⟩ := early
      exact ⟨fault, failure⟩
    · obtain ⟨_, _, _, _, absurd⟩ := late
      cases absurd
  · intro failed
    obtain ⟨fault, failure⟩ := failed
    exact ⟨fault, (compile_page_error_iff valid).2 (Or.inl ⟨fault, failure, rfl⟩)⟩

theorem compile_page_cycle_iff (valid : document.Valid) {id : NodeId} {options : CompileOptions} :
    (∃ cycle, document.compilePage id catalog options = .error (.page (.cycle cycle))) ↔
      ∃ page, document.get? id = some page ∧ page.type = .page ∧
        ∃ key, TransGen (Reads document page catalog.schema) key key := by
  constructor
  · intro failed
    obtain ⟨cycle, failed⟩ := failed
    rcases (compile_page_error_iff valid).1 failed with early | late
    · obtain ⟨_, _, absurd⟩ := early
      cases absurd
    · obtain ⟨page, cycle, found, ended, _⟩ := late
      obtain ⟨present, type⟩ := node_of_type_ok.1 found
      refine ⟨page, present, type, ?_⟩
      exact (graph_order_fails_iff (holds_page valid found).1).1 ⟨cycle, ended⟩
  · intro failed
    obtain ⟨page, present, type, round⟩ := failed
    have found := node_of_type_ok.2 ⟨present, type⟩
    obtain ⟨cycle, ended⟩ := (graph_order_fails_iff (holds_page valid found).1).2 round
    exact ⟨_, (compile_page_error_iff valid).2 (Or.inr ⟨page, cycle, found, ended, rfl⟩)⟩

theorem compile_page_imports_ne (valid : document.Valid) {id : NodeId} {options : CompileOptions}
    {error : ImportError} : document.compilePage id catalog options ≠ .error (.imports error) := by
  intro failed
  rcases (compile_page_error_iff valid).1 failed with early | late
  · obtain ⟨_, _, absurd⟩ := early
    cases absurd
  · obtain ⟨_, _, _, _, absurd⟩ := late
    cases absurd

/-- A page has a module unless there is no such page, or its state reads itself; its imports never
stand in the way, and how it is to be written has no say in the matter. -/
theorem compile_page_fails_iff (valid : document.Valid) (id : NodeId) (catalog : Catalog)
    (options : CompileOptions) :
    ((∃ lookup, document.compilePage id catalog options = .error (.page (.lookup lookup))) ↔
        ¬∃ page, document.get? id = some page ∧ page.type = .page) ∧
      ((∃ cycle, document.compilePage id catalog options = .error (.page (.cycle cycle))) ↔
        ∃ page, document.get? id = some page ∧ page.type = .page ∧
          ∃ key, TransGen (Reads document page catalog.schema) key key) ∧
      (∀ error, document.compilePage id catalog options ≠ .error (.imports error)) ∧
      ∀ other fault, document.compilePage id catalog options = .error fault ↔
        document.compilePage id catalog other = .error fault := by
  refine ⟨?_, compile_page_cycle_iff valid, fun _ => compile_page_imports_ne valid,
    fun _ _ => compile_page_error_congr valid⟩
  rw [← node_of_type_fails_iff]
  exact compile_page_lookup_iff valid

/-- Two fields that share each other's pair. -/
def circlingPage : Document :=
  (ofRoot "r").run (sampleFields (.binding "b" "value") (.binding "a" "value"))

theorem compile_page_fails_iff_sample :
    circlingPage.Valid ∧ (∃ cycle, circlingPage.compilePage "p" Catalog.builtin .usual =
        .error (.page (.cycle cycle))) ∧
      ∃ page, circlingPage.get? "p" = some page ∧ page.type = .page ∧
        ∃ key, TransGen (Reads circlingPage page Catalog.builtin.schema) key key := by
  have valid : circlingPage.Valid := valid_run (valid_of_root "r") _
  have path : (circlingPage.compilePage "p" Catalog.builtin .usual).map CompiledPage.component =
      .error (.page (.cycle ⟨"a.value", ["a.value", "b.value", "a.value"]⟩)) := by
    decide +kernel
  have failed := Outcome.map_eq_error.1 path
  refine ⟨valid, ⟨_, failed⟩, ?_⟩
  exact (compile_page_fails_iff valid "p" Catalog.builtin .usual).2.1.1 ⟨_, failed⟩

theorem bindings_add (valid : document.Valid) {id : NodeId} {schema : PropSchema} {scope : Scope}
    {bindings : PageBindings} (resolved : document.bindings id schema scope = .ok bindings) :
    scope.Adds bindings.scope
      (bindings.declarations.flatMap fun declaration => declaration.names.all) := by
  obtain ⟨page, order, holds, _, ended, view⟩ := bindings_ok valid resolved
  rw [PageView.bindings, ended] at view
  cases view
  exact declarations_add holds scope ended

theorem declare_adds (table : ImportTable) (page : Node) :
    table.scope.Adds (declared table page).2.scope [(declared table page).1] :=
  table.scope.adds_bind_fresh (ComponentName.ofPageName page.name)

theorem page_scope_adds (scope : Scope) (runs : Bool) :
    ∃ next, scope.Adds next
      (if runs then some (scope.freshName "pageScope") else none : Option String).toList := by
  cases runs with
  | true => exact ⟨_, scope.adds_bind_fresh "pageScope"⟩
  | false => exact ⟨scope, .nil scope⟩

/-- The names of a module are new, one after another, from an empty scope on. -/
theorem plan_adds (valid : document.Valid) {page : Node} {options : CompileOptions} {plan : Plan}
    (planned : PageCompiler.plan document page catalog options = .ok plan) :
    ∃ scope, Scope.root.Adds scope plan.boundNames := by
  obtain ⟨table, imports⟩ := import_table_ok document page.id catalog options
  rw [plan_eq imports] at planned
  obtain ⟨bindings, resolved, same⟩ := Outcome.bind_eq_ok.1 planned
  rw [← Except.ok.inj same]
  have state := bindings_add valid (Outcome.map_error_eq_ok.1 resolved)
  have whole := ((import_table_sound imports).adds.append (declare_adds table page)).append
    state.of_below
  obtain ⟨scope, scripts⟩ := page_scope_adds bindings.scope bindings.usesRuntime
  exact ⟨scope, whole.append scripts⟩

/-- The names that a module binds are distinct identifiers, and no reserved words. -/
theorem compiled_names_distinct (valid : document.Valid) {id : NodeId} {options : CompileOptions}
    {compiled : CompiledPage}
    (succeeded : document.compilePage id catalog options = .ok compiled) :
    ∃ page plan, document.get? id = some page ∧ page.type = .page ∧
      PageCompiler.plan document page catalog options = .ok plan ∧
      compiled.component = plan.component ∧
      compiled.source = (finish options (plan.rawSource document catalog options)).1 ∧
      plan.boundNames.Nodup ∧
      ∀ name ∈ plan.boundNames, Identifier.isValid name = true ∧
        Identifier.isReserved name = false ∧ name ≠ placeholder := by
  rw [compile_page_eq] at succeeded
  obtain ⟨page, found, succeeded⟩ := Outcome.bind_eq_ok.1 succeeded
  obtain ⟨plan, planned, same⟩ := Outcome.map_eq_ok.1 succeeded
  obtain ⟨present, type⟩ := node_of_type_ok.1 (Outcome.map_error_eq_ok.1 found)
  obtain ⟨scope, adds⟩ := plan_adds valid planned
  rw [← same]
  refine ⟨page, plan, present, type, planned, rfl, rfl, adds.apart, ?_⟩
  intro name member
  have usable := adds.usable name member
  refine ⟨usable.valid, usable.free, ?_⟩
  intro unknown
  rw [unknown] at usable
  exact absurd usable.free (by decide)

theorem compiled_names_distinct_sample :
    sharingPage.Valid ∧ ∃ compiled page plan,
      sharingPage.compilePage "p" Catalog.builtin ⟨false, false, "runtime"⟩ = .ok compiled ∧
      PageCompiler.plan sharingPage page Catalog.builtin ⟨false, false, "runtime"⟩ = .ok plan ∧
      compiled.component = "Home" ∧ plan.boundNames.Nodup := by
  have valid : sharingPage.Valid := valid_run (valid_of_root "r") _
  have named : (sharingPage.compilePage "p" Catalog.builtin ⟨false, false, "runtime"⟩).map
      CompiledPage.component = .ok "Home" := by
    decide +kernel
  obtain ⟨compiled, succeeded, component⟩ := Outcome.map_eq_ok.1 named
  obtain ⟨page, plan, _, _, planned, _, _, apart, _⟩ := compiled_names_distinct valid succeeded
  exact ⟨valid, compiled, page, plan, succeeded, planned, component, apart⟩

end Document

end PageBuilder
