import PageBuilder.Proofs.Page.Alike
import PageBuilder.Proofs.Page.Compiler
import PageBuilder.Proofs.Page.Outside

/-!
What a page compiles to depends on the page and the nodes below it, and besides on nothing but which
nodes are apis.
-/

namespace PageBuilder

namespace Document

open PageCompiler

variable {left right : Document} {page : Node}

theorem compile_page_found {document : Document} {id : NodeId} {catalog : Catalog}
    {options : CompileOptions} (found : document.nodeOfType id .page = .ok page) :
    document.compilePage id catalog options =
      (PageCompiler.plan document page catalog options).map
        (written document catalog options) := by
  rw [compile_page_eq, found, Outcome.map_error_ok]
  rfl

theorem compile_page_missing {document : Document} {id : NodeId} {catalog : Catalog}
    {options : CompileOptions} {fault : LookupFault}
    (missing : document.nodeOfType id .page = .error fault) :
    document.compilePage id catalog options = .error (.page (.lookup fault)) := by
  rw [compile_page_eq, missing, Outcome.map_error_error]
  rfl

theorem HoldsPage.cycle_in_keys (holds : left.HoldsPage page) {schema : PropSchema}
    {cycle : ReadCycle StateKey}
    (ended : (PageView.of left page schema).graph.order = .error cycle) {key : StateKey}
    (member : key ∈ cycle.node :: cycle.path) : key ∈ (PageView.of left page schema).keys := by
  have round := ReadGraph.order_error (graph_closed holds) ended
  have inPath : key ∈ cycle.path := by
    rcases List.mem_cons.1 member with rfl | later
    · obtain ⟨between, path⟩ := round.ends
      rw [path]
      exact List.mem_cons_self
    · exact later
  obtain ⟨read, step⟩ := round.reads_of_mem inPath
  exact (mem_keys_iff holds).2 ((graph_reads_iff holds).1 step).states.1

namespace SamePage

theorem get_eq (same : SamePage left right page) {id : NodeId}
    (inside : (PageView.nodesInside left page).contains id = true) :
    left.get? id = right.get? id := by
  rw [List.contains_iff_mem] at inside
  obtain ⟨⟨node, found⟩, on⟩ := same.here.mem_nodes_inside_iff.1 inside
  have own : node.id = id := same.here.stored found
  subst own
  rw [found, ((same.nodes node).1 ⟨found, on⟩).1]

theorem named_of (same : SamePage left right page) {name : String} {node : Node}
    (found : ((left.nodeNamed? name).filter fun node =>
      (PageView.nodesInside left page).contains node.id) = some node) :
    ((right.nodeNamed? name).filter fun node =>
      (PageView.nodesInside right page).contains node.id) = some node := by
  rw [Option.filter_eq_some_iff, node_named_iff same.here.valid] at found
  obtain ⟨⟨listed, named⟩, inside⟩ := found
  rw [Option.filter_eq_some_iff, node_named_iff same.there.valid, ← same.inside_eq]
  have present := (mem_all_nodes_iff same.here.stored).1 listed
  rw [same.get_eq inside] at present
  exact ⟨⟨(mem_all_nodes_iff same.there.stored).2 present, named⟩, inside⟩

theorem entries_eq (same : SamePage left right page) (schema : PropSchema) :
    (PageView.of left page schema).entries = (PageView.of right page schema).entries := by
  have plain : PageView.pageSlots page ++ PageView.stateNodes left page =
      PageView.pageSlots page ++ PageView.stateNodes right page := by
    rw [PageView.stateNodes, PageView.stateNodes, same.children_eq same.page_on]
  have slots : PageView.controlledSlots left page schema =
      PageView.controlledSlots right page schema := by
    rw [PageView.controlledSlots, PageView.controlledSlots, same.markup_elements_eq]
  have entry (keys : List StateKey) (slot : PageView.ControlledSlot) :
      slot.entry left (PageView.nodesInside left page) keys =
        slot.entry right (PageView.nodesInside right page) keys := by
    unfold PageView.ControlledSlot.entry
    simp only [PageView.slot_key_congr same.inside_eq fun _ => same.get_eq]
  simp only [PageView.of, plain, slots, entry]

theorem alike (same : SamePage left right page)
    (apis : ∀ id, PageView.isApi left id = PageView.isApi right id) (schema : PropSchema) :
    (PageView.of left page schema).Alike (PageView.of right page schema) where
  page := rfl
  schema := rfl
  entries := same.entries_eq schema
  markup := same.markup_elements_eq
  inside := same.inside_eq
  get _ := same.get_eq
  named name := Option.ext fun _ => ⟨same.named_of, same.symm.named_of⟩
  apis := apis
  owned key member := by
    obtain ⟨node, found, on, _⟩ := ((mem_keys_iff same.here).1 member).suits same.here
    exact List.contains_iff_mem.2 (same.here.mem_nodes_inside_iff.2 ⟨⟨node, found⟩, on⟩)

theorem labelled_eq (same : SamePage left right page)
    (apis : ∀ id, PageView.isApi left id = PageView.isApi right id) {schema : PropSchema}
    {cycle : ReadCycle StateKey}
    (ended : (PageView.of left page schema).graph.order = .error cycle) :
    cycle.labelled (PageView.of left page schema).label =
      cycle.labelled (PageView.of right page schema).label := by
  have label {key : StateKey} (member : key ∈ cycle.node :: cycle.path) :=
    (same.alike apis schema).label_eq (same.here.cycle_in_keys ended member)
  rw [ReadCycle.labelled, ReadCycle.labelled, label List.mem_cons_self]
  congr 1
  apply List.map_congr_left
  intro key member
  exact label (List.mem_cons_of_mem _ member)

theorem bindings_eq (same : SamePage left right page)
    (apis : ∀ id, PageView.isApi left id = PageView.isApi right id) (schema : PropSchema)
    (scope : Scope) : left.bindings page.id schema scope = right.bindings page.id schema scope := by
  have alike := same.alike apis schema
  have here := node_of_type_ok.2 ⟨same.here.found, same.here.type⟩
  have there := node_of_type_ok.2 ⟨same.there.found, same.there.type⟩
  rw [Document.bindings, Document.bindings, here, there]
  dsimp only
  rw [PageView.bindings, PageView.bindings, ← alike.graph_eq]
  cases ended : (PageView.of left page schema).graph.order with
  | error cycle =>
      dsimp only
      rw [same.labelled_eq apis ended]
  | ok order =>
      have declarations (names : PageNames) :
          (PageView.of left page schema).declaration? names =
            (PageView.of right page schema).declaration? names :=
        funext (alike.declaration_eq names)
      simp only [alike.names_eq, declarations, alike.props_eq, alike.runtime_scope_eq,
        alike.uses_runtime_eq, alike.diagnostics_eq, alike.page]

theorem import_table_eq (same : SamePage left right page) (catalog : Catalog)
    (options : CompileOptions) :
    importTable left page.id catalog options = importTable right page.id catalog options := by
  have states : pageStateTypes left page.id = pageStateTypes right page.id := by
    rw [pageStateTypes, pageStateTypes, same.children_eq same.page_on]
  have names : runtimeNames left page.id catalog options =
      runtimeNames right page.id catalog options := by
    unfold runtimeNames
    rw [states, same.markup_elements_eq]
  rw [importTable, importTable, names, same.markup_elements_eq]

theorem plan_eq (same : SamePage left right page)
    (apis : ∀ id, PageView.isApi left id = PageView.isApi right id) (catalog : Catalog)
    (options : CompileOptions) :
    PageCompiler.plan left page catalog options = PageCompiler.plan right page catalog options := by
  unfold PageCompiler.plan
  simp only [same.import_table_eq, same.bindings_eq apis]

theorem render_elements_eq (same : SamePage left right page) (context : MarkupContext)
    {depth other : Nat} {nodes : List Node} (on : ∀ node ∈ nodes, left.HasOnPage page.id node)
    (shallow : left.Shallow depth nodes) (further : right.Shallow other nodes) :
    renderElements { context with document := left } depth nodes =
      renderElements { context with document := right } other nodes := by
  have renderedNil (context : MarkupContext) (depth : Nat) :
      renderElements context depth [] = [] := by
    cases depth <;> rfl
  induction depth generalizing other nodes with
  | zero => rw [shallow.eq_nil, renderedNil, renderedNil]
  | succ depth ih =>
      cases other with
      | zero => rw [further.eq_nil, renderedNil, renderedNil]
      | succ other =>
          rw [renderElements, renderElements]
          apply List.map_congr_left
          intro element listed
          have member := (List.mem_filter.1 listed).1
          have above := on element member
          have slots : ((left.childSlots element.id).map fun slot =>
              (slot.1, renderElements { context with document := left } depth slot.2)) =
              (right.childSlots element.id).map fun slot =>
                (slot.1, renderElements { context with document := right } other slot.2) := by
            rw [← same.child_slots_eq above]
            apply List.map_congr_left
            intro slot known
            have inside : slot.2 ⊆ left.children element.id := fun child listed =>
              List.mem_flatMap.2 ⟨slot, known, listed⟩
            have more := further.children same.there.stored member
            rw [← same.children_eq above] at more
            rw [ih (fun child listed => above.child same.here.stored (inside listed))
              ((shallow.children same.here.stored member).subset inside) (more.subset inside)]
          dsimp only
          rw [slots]
          rfl

theorem roots_eq (same : SamePage left right page) (plan : Plan) (own : plan.page = page)
    (catalog : Catalog) (options : CompileOptions) :
    plan.roots left catalog options = plan.roots right catalog options := by
  have further := same.there.top_shallow
  rw [← same.children_in_eq same.page_on] at further
  rw [Plan.roots, Plan.roots, own, ← same.children_in_eq same.page_on]
  apply same.render_elements_eq (plan.context left catalog options) _ same.here.top_shallow further
  intro node listed
  exact same.here.top_on_page listed

theorem written_eq (same : SamePage left right page) (plan : Plan) (own : plan.page = page)
    (catalog : Catalog) (options : CompileOptions) :
    written left catalog options plan = written right catalog options plan := by
  have raw : plan.rawSource left catalog options = plan.rawSource right catalog options := by
    unfold Plan.rawSource
    rw [same.roots_eq plan own]
  rw [written, written, raw, own, same.markup_elements_eq]

theorem compile_page_eq (same : SamePage left right page)
    (apis : ∀ id, PageView.isApi left id = PageView.isApi right id) (catalog : Catalog)
    (options : CompileOptions) :
    left.compilePage page.id catalog options = right.compilePage page.id catalog options := by
  rw [compile_page_found (node_of_type_ok.2 ⟨same.here.found, same.here.type⟩),
    compile_page_found (node_of_type_ok.2 ⟨same.there.found, same.there.type⟩),
    ← same.plan_eq apis]
  cases planned : PageCompiler.plan left page catalog options with
  | error fault => simp only [Except.map]
  | ok plan => simp only [Except.map, same.written_eq plan (plan_page planned)]

end SamePage

/-- Documents agree on a node, on all nodes below it, and on which identifiers are those of apis. -/
structure AgreeOn (left right : Document) (id : NodeId) : Prop where
  node : left.get? id = right.get? id
  below : ∀ node, node ∈ left.descendants id ↔ node ∈ right.descendants id
  apis : ∀ api, PageView.isApi left api = PageView.isApi right api

theorem has_on_page_iff {document : Document} (holds : document.HoldsPage page) {node : Node} :
    document.HasOnPage page.id node ↔ node = page ∨ node ∈ document.descendants page.id := by
  rw [mem_descendants_iff holds.stored holds.valid.rooted ⟨page, holds.found⟩]
  constructor
  · intro on
    obtain ⟨found, distance, under⟩ := on
    cases distance with
    | zero =>
        rw [under.eq_of_zero, holds.found] at found
        exact Or.inl (Option.some.inj found).symm
    | succ distance => exact Or.inr ⟨found, distance, under⟩
  · intro on
    rcases on with rfl | ⟨found, distance, under⟩
    · exact ⟨holds.found, 0, .self⟩
    · exact ⟨found, distance + 1, under⟩

theorem AgreeOn.same_page (agree : AgreeOn left right page.id) (holds : left.HoldsPage page)
    (valid : right.Valid) : SamePage left right page := by
  have there : right.HoldsPage page := ⟨valid, agree.node ▸ holds.found, holds.type⟩
  refine ⟨holds, there, fun node => ?_⟩
  rw [has_on_page_iff holds, has_on_page_iff there, agree.below]

theorem SamePage.agree_on (same : SamePage left right page)
    (apis : ∀ id, PageView.isApi left id = PageView.isApi right id) :
    AgreeOn left right page.id := by
  have apart {document : Document} (holds : document.HoldsPage page) :
      page ∉ document.descendants page.id := by
    rw [mem_descendants_iff holds.stored holds.valid.rooted ⟨page, holds.found⟩]
    rintro ⟨_, distance, under⟩
    exact holds.valid.rooted.not_under_self ⟨page, holds.found⟩ under
  refine ⟨by rw [same.here.found, same.there.found], fun node => ?_, apis⟩
  have on := same.nodes node
  rw [has_on_page_iff same.here, has_on_page_iff same.there] at on
  by_cases top : node = page
  · rw [top]
    exact iff_of_false (apart same.here) (apart same.there)
  · simpa [top] using on

/-- A page compiles to the same in all documents that agree on it, on the nodes below it and on
which nodes are apis. So no edits outside the page that leave the apis alone change what it compiles
to. -/
theorem compile_page_isolated {document : Document} (valid : document.Valid) (id : NodeId)
    (catalog : Catalog) (options : CompileOptions) :
    (∀ other : Document, other.Valid → AgreeOn document other id →
      document.compilePage id catalog options = other.compilePage id catalog options) ∧
    ∀ (page : Node) (actions : List Action), document.nodeOfType id .page = .ok page →
      (∀ action ∈ actions, ∀ touched ∈ action.touched,
        touched ∉ PageView.nodesInside document page) →
      (∀ api, PageView.isApi document api = PageView.isApi (document.run actions) api) →
        (document.run actions).compilePage id catalog options =
          document.compilePage id catalog options := by
  constructor
  · intro other further agree
    cases found : document.nodeOfType id .page with
    | error fault =>
        have missing : other.nodeOfType id .page = .error fault := by
          rw [← found, nodeOfType, nodeOfType, node, node, agree.node]
        rw [compile_page_missing found, compile_page_missing missing]
    | ok page =>
        obtain ⟨holds, own⟩ := holds_page valid found
        subst own
        exact (agree.same_page holds further).compile_page_eq agree.apis catalog options
  · intro page actions found outside apis
    obtain ⟨holds, own⟩ := holds_page valid found
    subst own
    exact ((same_page_run holds outside).compile_page_eq apis catalog options).symm

/-- A theme that would like to have the name of a state node, and another name for the root. -/
def outsideEdits : List Action :=
  [.addNode ⟨"t", "sum", none, .empty, .theme⟩ "r" "themes" none, .setNodeName "r" "shop"]

theorem is_api_eq_false {document : Document} (noApi : ∀ node ∈ document.allNodes, node.type ≠ .api)
    (id : NodeId) : PageView.isApi document id = false := by
  unfold PageView.isApi
  split
  · rename_i node found
    exact decide_eq_false (noApi node (mem_all_nodes.2 ⟨id, found⟩))
  · rfl

theorem compile_page_isolated_sample :
    sharingPage.Valid ∧ (sharingPage.run outsideEdits).Valid ∧
      (sharingPage.run outsideEdits).nodeNamed? "sum1" ≠ none ∧
      AgreeOn sharingPage (sharingPage.run outsideEdits) "p" ∧
      sharingPage.compilePage "p" Catalog.builtin .usual =
        (sharingPage.run outsideEdits).compilePage "p" Catalog.builtin .usual ∧
      (sharingPage.run outsideEdits).compilePage "p" Catalog.builtin .usual =
        sharingPage.compilePage "p" Catalog.builtin .usual := by
  have valid : sharingPage.Valid := valid_run (valid_of_root "r") _
  have further := valid_run valid outsideEdits
  have apis (id : NodeId) : PageView.isApi sharingPage id =
      PageView.isApi (sharingPage.run outsideEdits) id := by
    rw [is_api_eq_false (by decide +kernel), is_api_eq_false (by decide +kernel)]
  have type : (sharingPage.get? "p").map Node.type = some .page := by decide +kernel
  obtain ⟨page, present, isPage⟩ := Option.map_eq_some_iff.1 type
  have found : sharingPage.nodeOfType "p" .page = .ok page := node_of_type_ok.2 ⟨present, isPage⟩
  obtain ⟨holds, own⟩ := holds_page valid found
  have outside : ∀ action ∈ outsideEdits, ∀ touched ∈ action.touched,
      touched ∉ PageView.nodesInside sharingPage page := by
    unfold PageView.nodesInside
    rw [own]
    decide +kernel
  have agree : AgreeOn sharingPage (sharingPage.run outsideEdits) "p" :=
    own ▸ (same_page_run holds outside).agree_on apis
  obtain ⟨two, edits⟩ := compile_page_isolated valid "p" Catalog.builtin .usual
  exact ⟨valid, further, by decide +kernel, agree, two _ further agree,
    edits page outsideEdits found outside apis⟩

end Document

end PageBuilder
