import PageBuilder.Proofs.Page.MappedPage
import PageBuilder.Proofs.Page.Once

/-!
What identifiers have to say in the module of a page. Besides the calls of the hook for queries,
which are given identifiers, it is the order of the declarations: what one piece of state reads is
declared in the order of its keys, and so in that of the identifiers, unless it stands before its
reader anyway.
-/

namespace PageBuilder

open PageCompiler
open Code (SameButIds IsPlainId)

def LookupFault.mapIds (change : NodeId → NodeId) : LookupFault → LookupFault
  | .nodeNotFound id => .nodeNotFound (change id)
  | .noParent id => .noParent (change id)
  | .wrongType id expected actual => .wrongType (change id) expected actual
  | .missingNamespace type space => .missingNamespace type space
  | .slotNotFound page slot => .slotNotFound (change page) slot

namespace Document

variable {change : NodeId → NodeId} {document : Document} {page : Node} {catalog : Catalog}
  {options : CompileOptions}

theorem lookup_fails_map_ids (injective : Function.Injective change) {id : NodeId}
    {type : NodeType} {fault : LookupFault}
    (missing : document.nodeOfType id type = .error fault) :
    (document.mapIds change).nodeOfType (change id) type = .error (fault.mapIds change) := by
  rw [nodeOfType, node] at missing ⊢
  rw [get_map_ids injective]
  cases found : document.get? id with
  | none =>
      rw [found] at missing
      cases missing
      rfl
  | some node =>
      rw [found] at missing
      simp only [Option.map_some, bind, Except.bind] at missing ⊢
      rw [Node.type_map_ids]
      split at missing
      · cases missing
      · rename_i other
        cases missing
        rw [if_neg other]
        rfl

end Document

namespace PageView

theorem read_step_iff_entry {view : PageView} {reader read : StateKey} :
    ReadStep view.steps reader read ↔
      ∃ entry ∈ view.entries, entry.1 = reader ∧ read ∈ view.entryReads entry.2 := by
  rw [ReadStep, steps, List.mem_flatMap]
  constructor
  · rintro ⟨entry, member, listed⟩
    rcases List.mem_cons.1 listed with node | later
    · cases node
    · obtain ⟨target, reads, same⟩ := List.mem_map.1 later
      cases same
      exact ⟨entry, member, rfl, reads⟩
  · rintro ⟨entry, member, rfl, reads⟩
    exact ⟨entry, member, List.mem_cons_of_mem _ (List.mem_map.2 ⟨read, reads, rfl⟩)⟩

def ReadsEarlier (view : PageView) : Prop :=
  ∀ entry ∈ view.entries, ∀ read ∈ view.entryReads entry.2,
    view.keys.idxOf read < view.keys.idxOf entry.1

instance (view : PageView) : Decidable view.ReadsEarlier :=
  inferInstanceAs (Decidable (∀ entry ∈ view.entries, ∀ read ∈ view.entryReads entry.2, _))

theorem reads_earlier_iff {view : PageView} :
    view.ReadsEarlier ↔ ∀ reader read, ReadStep view.steps reader read →
      view.keys.idxOf read < view.keys.idxOf reader := by
  constructor
  · intro earlier reader read step
    obtain ⟨entry, member, rfl, reads⟩ := read_step_iff_entry.1 step
    exact earlier entry member read reads
  · intro earlier entry member read reads
    exact earlier entry.1 read (read_step_iff_entry.2 ⟨entry, member, rfl, reads⟩)

/-- Where all state stands after what it reads, it comes into the graph in its own order. -/
theorem inserted_steps {view : PageView} (distinct : view.keys.Nodup)
    (earlier : view.ReadsEarlier) : ReadGraph.inserted view.steps = view.keys := by
  let readers := view.entries.map fun entry => (entry.1, view.entryReads entry.2)
  have keys : readers.map Prod.fst = view.keys := List.map_map
  have steps : view.steps = readers.flatMap fun reader =>
      .node reader.1 :: reader.2.map (.read reader.1) := by
    rw [PageView.steps, List.flatMap_map]
  rw [steps, ReadGraph.inserted_readers (keys ▸ distinct), keys]
  intro reader member read reads
  obtain ⟨entry, listed, rfl⟩ := List.mem_map.1 member
  rw [keys]
  exact earlier entry listed read reads

end PageView

namespace Document

variable {change : NodeId → NodeId} {document : Document} {page : Node} {catalog : Catalog}
  {options : CompileOptions}

/-- The pieces of state that one piece reads keep the order of their keys, or no piece reads one
that stands after it among the state of the page. -/
def KeepsReadOrder (change : NodeId → NodeId) (document : Document) (page : Node)
    (schema : PropSchema) : Prop :=
  (∀ reader first second, Reads document page schema reader first →
      Reads document page schema reader second → compare first second = .lt →
        compare (first.mapIds change) (second.mapIds change) = .lt) ∨
    ∀ reader read, Reads document page schema reader read →
      (PageView.of document page schema).keys.idxOf read <
        (PageView.of document page schema).keys.idxOf reader

theorem read_step_iff (holds : document.HoldsPage page) {schema : PropSchema}
    {reader read : StateKey} :
    ReadStep (PageView.of document page schema).steps reader read ↔
      Reads document page schema reader read := by
  rw [← ReadGraph.reads_build, ← PageView.graph_eq_build, graph_reads_iff holds]

theorem reads_earlier_iff (holds : document.HoldsPage page) {schema : PropSchema} :
    (PageView.of document page schema).ReadsEarlier ↔
      ∀ reader read, Reads document page schema reader read →
        (PageView.of document page schema).keys.idxOf read <
          (PageView.of document page schema).keys.idxOf reader := by
  simp only [PageView.reads_earlier_iff, read_step_iff holds]

theorem KeepsReadOrder.settled (holds : document.HoldsPage page) {schema : PropSchema}
    (kept : KeepsReadOrder change document page schema) :
    (PageView.of document page schema).Settled change := by
  rcases kept with ordered | earlier
  · exact .inl fun reader first second one other =>
      ordered reader first second ((read_step_iff holds).1 one) ((read_step_iff holds).1 other)
  · refine .inr fun reader read step => ?_
    rw [PageView.inserted_steps (keys_nodup holds) ((reads_earlier_iff holds).2 earlier)]
    exact earlier reader read ((read_step_iff holds).1 step)

theorem cycle_fault_map_ids (injective : Function.Injective change)
    (holds : document.HoldsPage page) {schema : PropSchema} {cycle : ReadCycle StateKey}
    (ended : (PageView.of document page schema).graph.order = .error cycle) :
    cycleFault (PageView.of (document.mapIds change) (page.mapIds change) schema)
        (cycle.map (StateKey.mapIds change)) =
      cycleFault (PageView.of document page schema) cycle := by
  have label {key : StateKey} (member : key ∈ cycle.node :: cycle.path) :=
    (mapped_view injective holds schema).label_eq (holds.cycle_in_keys ended member)
  rw [cycleFault, cycleFault, ReadCycle.labelled, ReadCycle.labelled, ReadCycle.map, List.map_map,
    label List.mem_cons_self]
  congr 2
  apply List.map_congr_left
  intro key member
  exact label (List.mem_cons_of_mem _ member)

/-- Where a query has no api the text for it is empty under all identifiers. -/
def RenamedTo (change : NodeId → NodeId) (before after : NodeId) : Prop :=
  after = change before ∨ before = "" ∧ after = ""

def PlainQueries (change : NodeId → NodeId) (document : Document) : Prop :=
  ∀ node ∈ document.allNodes, node.type = .queryState →
    (IsPlainId node.id ∧ IsPlainId (change node.id)) ∧
      ∀ api ∈ node.attributeText? apiAttribute, IsPlainId api ∧ IsPlainId (change api)

instance (change : NodeId → NodeId) (document : Document) :
    Decidable (PlainQueries change document) :=
  inferInstanceAs (Decidable (∀ node ∈ document.allNodes, node.type = .queryState → _))

theorem Entered.found_of_node {schema : PropSchema} {key : StateKey} {node : Node}
    (entered : Entered document page schema key (.node node)) :
    document.get? node.id = some node := by
  have only {entry : StateEntry} (entered : Entered document page schema key entry)
      (same : entry = .node node) : document.get? node.id = some node := by
    cases entered with
    | slot held listed => cases same
    | node found child type =>
        cases same
        exact found
    | prop controls =>
        unfold PageView.ControlledSlot.entry at same
        split at same
        · split at same
          · cases same
          · cases same
        · cases same
        · cases same
  exact only entered rfl

theorem pairs_queries (change : NodeId → NodeId) (view : PageView) :
    view.PairsQueries change (RenamedTo change) := by
  intro key node _ _
  refine ⟨?_, .inl rfl⟩
  rw [PageView.apiText, PageView.apiText]
  cases node.attributeText? apiAttribute with
  | none => exact .inr ⟨rfl, rfl⟩
  | some api => exact .inl rfl

theorem pairs_plain_queries (holds : document.HoldsPage page) (schema : PropSchema)
    (plain : PlainQueries change document) :
    (PageView.of document page schema).PairsQueries change fun before after =>
      RenamedTo change before after ∧ IsPlainId before ∧ IsPlainId after := by
  intro key node member type
  obtain ⟨apis, ids⟩ := pairs_queries change _ key node member type
  have found := ((mem_entries_iff holds).1 member).found_of_node
  obtain ⟨own, api⟩ := plain node (mem_all_nodes.2 ⟨_, found⟩) type
  refine ⟨⟨apis, ?_⟩, ids, own⟩
  rw [PageView.apiText, PageView.apiText]
  cases held : node.attributeText? apiAttribute with
  | none =>
      have empty : IsPlainId "" := by decide
      exact ⟨empty, empty⟩
  | some text => exact api text held

theorem finish_same {hook : String} {paired : NodeId → NodeId → Prop}
    (named : Identifier.isValid hook = true)
    (calm : options.pretty = false ∨
      ∀ before after, paired before after → IsPlainId before ∧ IsPlainId after)
    {raw other : String} (same : SameButIds hook paired raw other) :
    SameButIds hook paired (finish options raw).1 (finish options other).1 := by
  rw [finish, finish]
  by_cases pretty : options.pretty = true
  · rw [if_pos pretty, if_pos pretty]
    have plain := calm.resolve_left (by simp [pretty])
    rcases Code.layout_swapped (Code.swaps_plain named (plain _ _)) same with failed | done
    · obtain ⟨fault, one, two⟩ := failed
      rw [one, two]
      exact same
    · obtain ⟨source, further, one, two, laidOut⟩ := done
      rw [one, two]
      exact laidOut
  · rw [if_neg pretty, if_neg pretty]
    exact same

theorem raw_source_same {paired : NodeId → NodeId → Prop} {settled : Prop} {left right : Plan}
    (catalog : Catalog) (mapped : left.Mapped change paired settled right)
    (injective : Function.Injective change) (valid : document.Valid)
    (bare : options.editorMode = false) (kept : settled) :
    SameButIds (left.hooks options).useDataQuery paired
      (left.rawSource document catalog options)
      (right.rawSource (document.mapIds change) catalog options) := by
  rw [raw_source_parts, raw_source_parts, mapped.front_eq, mapped.back_eq injective valid bare]
  exact ((SameButIds.refl _).append (.join (mapped.statements_ordered kept))).append (.refl _)

/-- A page that compiles does so under other identifiers, to a module with the same statements up to
the identifiers of queries, perhaps in another order. -/
theorem compiled_map_ids (injective : Function.Injective change) (holds : document.HoldsPage page)
    (bare : options.editorMode = false) {plan : Plan}
    (planned : PageCompiler.plan document page catalog options = .ok plan) :
    ∃ changed other,
      PageCompiler.plan (document.mapIds change) (page.mapIds change) catalog options =
          .ok changed ∧
      (document.mapIds change).compilePage (change page.id) catalog options = .ok other ∧
      other.page = change page.id ∧ other.name = page.name ∧ other.component = plan.component ∧
      other.source = (finish options (plan.front ++ String.join (changed.statements options) ++
        plan.back document catalog options)).1 ∧
      (∃ same, List.Forall₂ (SameButIds (plan.hooks options).useDataQuery (RenamedTo change))
          (plan.statements options) same ∧ (changed.statements options).Perm same) ∧
      (KeepsReadOrder change document page catalog.schema →
        options.pretty = false ∨ PlainQueries change document →
          SameButIds (plan.hooks options).useDataQuery (RenamedTo change)
            (finish options (plan.rawSource document catalog options)).1 other.source) := by
  have there := holds.map_ids injective
  obtain ⟨renamed, replanned, mapped⟩ :=
    plan_map_ids injective holds (pairs_queries change _) planned
  have named : Identifier.isValid (plan.hooks options).useDataQuery = true :=
    local_name_valid planned .useDataQuery
  have same : renamed.page = page.mapIds change := plan_page replanned
  refine ⟨renamed, written (document.mapIds change) catalog options renamed, replanned, ?_, ?_, ?_,
    mapped.component, ?_, mapped.statements_same options, ?_⟩
  · have found : (document.mapIds change).compilePage (change page.id) catalog options = _ :=
      compile_page_found (node_of_type_ok.2 ⟨there.found, there.type⟩)
    rw [replanned] at found
    exact found
  · rw [written, same]
    rfl
  · rw [written, same]
    rfl
  · rw [written, raw_source_parts, mapped.front_eq, mapped.back_eq injective holds.valid bare]
  · intro kept calm
    have settled := kept.settled holds
    rcases calm with rough | plain
    · exact finish_same named (.inl rough)
        (raw_source_same catalog mapped injective holds.valid bare settled)
    · obtain ⟨again, same, precise⟩ :=
        plan_map_ids injective holds (pairs_plain_queries holds catalog.schema plain) planned
      rw [replanned] at same
      cases same
      have raw := raw_source_same catalog precise injective holds.valid bare settled
      exact (finish_same named (.inr fun _ _ => And.right) raw).imp And.left

theorem missing_map_ids (valid : document.Valid) (injective : Function.Injective change)
    {id : NodeId} {lookup : LookupFault}
    (failed : document.compilePage id catalog options = .error (.page (.lookup lookup))) :
    (document.mapIds change).compilePage (change id) catalog options =
      .error (.page (.lookup (lookup.mapIds change))) := by
  rcases (compile_page_error_iff valid).1 failed with missing | circling
  · obtain ⟨fault, failure, same⟩ := missing
    cases same
    exact compile_page_missing (lookup_fails_map_ids injective failure)
  · obtain ⟨_, _, _, _, absurd⟩ := circling
    cases absurd

theorem circling_map_ids (valid : document.Valid) (injective : Function.Injective change)
    {id : NodeId} {cycle : ReadCycle String}
    (failed : document.compilePage id catalog options = .error (.page (.cycle cycle))) :
    (∃ other, (document.mapIds change).compilePage (change id) catalog options =
        .error (.page (.cycle other))) ∧
      ∀ page, document.nodeOfType id .page = .ok page →
        KeepsReadOrder change document page catalog.schema →
          (document.mapIds change).compilePage (change id) catalog options =
            .error (.page (.cycle cycle)) := by
  rcases (compile_page_error_iff valid).1 failed with missing | circling
  · obtain ⟨_, _, absurd⟩ := missing
    cases absurd
  · obtain ⟨page, round, found, ended, same⟩ := circling
    obtain ⟨holds, rfl⟩ := holds_page valid found
    have view := mapped_view injective holds catalog.schema
    have there := holds.map_ids injective
    have present := node_of_type_ok.2 ⟨there.found, there.type⟩
    have fails {other : ReadCycle StateKey} (again : (PageView.of (document.mapIds change)
        (page.mapIds change) catalog.schema).graph.order = .error other) :
        (document.mapIds change).compilePage (change page.id) catalog options =
          .error (.page (cycleFault (PageView.of (document.mapIds change) (page.mapIds change)
            catalog.schema) other)) :=
      (compile_page_error_iff there.valid).2 (.inr ⟨_, other, present, again, rfl⟩)
    constructor
    · obtain ⟨other, again⟩ := view.order_fails_iff.2 ⟨round, ended⟩
      exact ⟨_, fails again⟩
    · intro other again kept
      rw [found] at again
      cases again
      have order := ReadGraph.order_build_map view.keys_injective (kept.settled holds)
      rw [← view.graph_eq, ← PageView.graph_eq_build, ended] at order
      have told := fails order
      rw [cycle_fault_map_ids injective holds ended] at told
      rw [told, same]

/-- What identifiers have to say in the result of compiling a page. Under other identifiers a page
fails for the same reason or compiles to a module with the same statements, in which only the calls
of the hook for queries tell identifiers. The statements, and the cycle that a failure is about, are
the same ones in the same order if the identifiers keep the order of what one piece of state reads,
or if no piece of state stands before what it reads. -/
theorem compile_page_map_ids (valid : document.Valid) (injective : Function.Injective change)
    (id : NodeId) (catalog : Catalog) (options : CompileOptions)
    (bare : options.editorMode = false) :
    let renamed := document.mapIds change
    renamed.Valid ∧
      (∀ error, document.compilePage id catalog options ≠ .error (.imports error)) ∧
      (∀ lookup, document.compilePage id catalog options = .error (.page (.lookup lookup)) →
        renamed.compilePage (change id) catalog options =
          .error (.page (.lookup (lookup.mapIds change)))) ∧
      (∀ cycle, document.compilePage id catalog options = .error (.page (.cycle cycle)) →
        (∃ other, renamed.compilePage (change id) catalog options =
          .error (.page (.cycle other))) ∧
        ∀ page, document.nodeOfType id .page = .ok page →
          KeepsReadOrder change document page catalog.schema →
            renamed.compilePage (change id) catalog options = .error (.page (.cycle cycle))) ∧
      ∀ compiled, document.compilePage id catalog options = .ok compiled →
        ∃ page plan changed other, document.nodeOfType id .page = .ok page ∧
          PageCompiler.plan document page catalog options = .ok plan ∧
          PageCompiler.plan renamed (page.mapIds change) catalog options = .ok changed ∧
          renamed.compilePage (change id) catalog options = .ok other ∧
          other.page = change compiled.page ∧ other.name = compiled.name ∧
          other.component = compiled.component ∧
          compiled.source = (finish options (plan.front ++
            String.join (plan.statements options) ++ plan.back document catalog options)).1 ∧
          other.source = (finish options (plan.front ++
            String.join (changed.statements options) ++ plan.back document catalog options)).1 ∧
          (∃ same, List.Forall₂ (SameButIds (plan.hooks options).useDataQuery (RenamedTo change))
              (plan.statements options) same ∧ (changed.statements options).Perm same) ∧
          (KeepsReadOrder change document page catalog.schema →
            options.pretty = false ∨ PlainQueries change document →
              SameButIds (plan.hooks options).useDataQuery (RenamedTo change)
                compiled.source other.source) := by
  refine ⟨valid.map_ids injective, fun _ => compile_page_imports_ne valid,
    fun _ => missing_map_ids valid injective, fun _ => circling_map_ids valid injective, ?_⟩
  intro compiled done
  obtain ⟨page, plan, found, planned, rfl⟩ := compile_page_ok done
  obtain ⟨holds, rfl⟩ := holds_page valid found
  have own := plan_page planned
  obtain ⟨changed, other, replanned, again, ids, names, component, source, statements, sources⟩ :=
    compiled_map_ids injective holds bare planned
  refine ⟨page, plan, changed, other, found, planned, replanned, again, ?_, ?_, component, ?_,
    source, statements, sources⟩
  · rw [ids, written, own]
  · rw [names, written, own]
  · rw [written, raw_source_parts]

def queryPage : Document :=
  let page : Node := ⟨"p", "home", none, .empty, .page (.ofList [("count", .null)])⟩
  let query : Node := ⟨"q", "orders", none, .ofList [("api", .constString "k")],
    .queryState (.ofList [("limit", .binding "p" "count")])⟩
  (ofRoot "r").run [.addNode page "r" "pages" none, .addNode query "p" "state" none]

/-- The query and its api exchange their identifiers. -/
theorem compile_page_map_ids_sample :
    queryPage.Valid ∧ Function.Injective (Equiv.swap "k" "q") ∧
      PlainQueries (Equiv.swap "k" "q") queryPage ∧ ∃ compiled other,
        queryPage.compilePage "p" Catalog.empty rawOptions = .ok compiled ∧
        (queryPage.mapIds (Equiv.swap "k" "q")).compilePage "p" Catalog.empty rawOptions =
          .ok other ∧
        compiled.source ≠ other.source ∧
        SameButIds "useDataQuery" (RenamedTo (Equiv.swap "k" "q")) compiled.source
          other.source := by
  have valid : queryPage.Valid := valid_run (valid_of_root "r") _
  have injective := (Equiv.swap "k" "q").injective
  have plain : PlainQueries (Equiv.swap "k" "q") queryPage := by decide +kernel
  have text : (queryPage.compilePage "p" Catalog.empty rawOptions).map CompiledPage.component =
      .ok "Home" := by
    decide +kernel
  obtain ⟨compiled, done, _⟩ := Outcome.map_eq_ok.1 text
  obtain ⟨_, _, _, _, results⟩ :=
    compile_page_map_ids valid injective "p" Catalog.empty rawOptions rfl
  obtain ⟨page, plan, _, other, found, planned, _, again, _, _, _, _, _, _, same⟩ :=
    results compiled done
  have fixed : Equiv.swap "k" "q" "p" = "p" := by decide
  rw [fixed] at again
  have sources : (queryPage.compilePage "p" Catalog.empty rawOptions).map CompiledPage.source ≠
      ((queryPage.mapIds (Equiv.swap "k" "q")).compilePage "p" Catalog.empty rawOptions).map
        CompiledPage.source := by
    decide +kernel
  have told : ((queryPage.nodeOfType "p" .page).toOption.bind fun page =>
      (PageCompiler.plan queryPage page Catalog.empty rawOptions).toOption.map fun plan =>
        ((plan.hooks rawOptions).useDataQuery,
          decide (PageView.of queryPage page Catalog.empty.schema).ReadsEarlier)) =
        some ("useDataQuery", true) := by
    decide +kernel
  rw [found, Except.toOption, Option.bind_some, planned, Except.toOption, Option.map_some,
    Option.some.injEq, Prod.mk.injEq, decide_eq_true_iff] at told
  obtain ⟨hook, earlier⟩ := told
  have kept : KeepsReadOrder (Equiv.swap "k" "q") queryPage page Catalog.empty.schema :=
    .inr ((reads_earlier_iff (holds_page valid found).1).1 earlier)
  refine ⟨valid, injective, plain, compiled, other, done, again, ?_, ?_⟩
  · intro equal
    rw [done, again] at sources
    exact sources (congrArg Except.ok equal)
  · rw [← hook]
    exact same kept (.inr plain)

/-- A derived state that reads the values of two elements, one inside the other. -/
def readAheadPage : Document :=
  let page : Node := ⟨"p", "home", none, .empty, .page .empty⟩
  let derived : Node := ⟨"c", "c", none, .ofList [("code", .constString "() => 1")],
    .derivedState (.ofList [("left", .bound "\x7b\x7ba.value\x7d\x7d" none),
      ("right", .bound "\x7b\x7bb.value\x7d\x7d" none)])⟩
  let field (id : NodeId) (name : String) : Node :=
    ⟨id, name, none, .ofList [("component", .constString "TextField")], .element .empty⟩
  (ofRoot "r").run [.addNode page "r" "pages" none, .addNode derived "p" "state" none,
    .addNode (field "x" "a") "p" "children" none, .addNode (field "y" "b") "x" "children" none]

def valueOfA : String := "  const [aValue, setAValue] = React.useState(\"\");\n"

def valueOfB : String := "  const [bValue, setBValue] = React.useState(\"\");\n"

def readAheadModule (values : String) : String :=
  "import \x7b TextField \x7d from \"@pagecraft/components\";\n" ++
    "import * as React from \"react\";\n\nexport default function Home() \x7b\n" ++ values ++
    "  const c = React.useMemo(() => (\n() => 1\n)" ++
    "(\x7b left: aValue, right: bValue \x7d), [aValue, bValue]);\n\n  return (\n" ++
    "    <TextField value=\x7baValue\x7d onChange=\x7bsetAValue\x7d>\n" ++
    "      <TextField value=\x7bbValue\x7d onChange=\x7bsetBValue\x7d />\n" ++
    "    </TextField>\n  );\n\x7d\n"

theorem read_ahead_module_unqueried :
    ¬"useDataQuery".toList <:+: (readAheadModule (valueOfA ++ valueOfB)).toList := by
  have absent : 'Q' ∉ (readAheadModule (valueOfA ++ valueOfB)).toList := by
    -- Piece by piece, since a long text takes the kernel long to decode.
    unfold readAheadModule
    simp only [String.toList_append, List.mem_append, not_or]
    refine ⟨⟨⟨⟨⟨⟨⟨?_, ?_⟩, ?_, ?_⟩, ?_⟩, ?_⟩, ?_⟩, ?_⟩, ?_⟩
    all_goals decide +kernel
  exact fun inside => absent (inside.subset (by decide))

/-- The declarations of what is read ahead change places with the identifiers. There is no query in
either module, so nothing in it may differ. -/
theorem identifiers_order_declarations :
    readAheadPage.Valid ∧ Function.Injective (Equiv.swap "x" "y") ∧
      rawOptions.editorMode = false ∧ ∃ compiled other,
        readAheadPage.compilePage "p" Catalog.builtin rawOptions = .ok compiled ∧
        (readAheadPage.mapIds (Equiv.swap "x" "y")).compilePage (Equiv.swap "x" "y" "p")
          Catalog.builtin rawOptions = .ok other ∧
        compiled.source = readAheadModule (valueOfA ++ valueOfB) ∧
        other.source = readAheadModule (valueOfB ++ valueOfA) ∧
        ∀ paired, ¬SameButIds "useDataQuery" paired compiled.source other.source := by
  have first : (readAheadPage.compilePage "p" Catalog.builtin rawOptions).map
      CompiledPage.source = .ok (readAheadModule (valueOfA ++ valueOfB)) := by
    decide +kernel
  have second : ((readAheadPage.mapIds (Equiv.swap "x" "y")).compilePage
      (Equiv.swap "x" "y" "p") Catalog.builtin rawOptions).map CompiledPage.source =
        .ok (readAheadModule (valueOfB ++ valueOfA)) := by
    decide +kernel
  have differ :
      readAheadModule (valueOfA ++ valueOfB) ≠ readAheadModule (valueOfB ++ valueOfA) := by
    decide +kernel
  obtain ⟨compiled, done, source⟩ := Outcome.map_eq_ok.1 first
  obtain ⟨other, again, further⟩ := Outcome.map_eq_ok.1 second
  refine ⟨valid_run (valid_of_root "r") _, (Equiv.swap "x" "y").injective, rfl, compiled, other,
    done, again, source, further, fun paired same => ?_⟩
  rw [source, further] at same
  exact differ (same.eq_of_absent read_ahead_module_unqueried)

end Document

end PageBuilder
