import PageBuilder.Proofs.Document.Slots
import PageBuilder.Proofs.Page.Compiler

/-!
What a compilation of the whole document is about. It goes by the slot that is meant for pages and
not by the type of a node: a page that stands elsewhere is passed over, and whatever else stands in
the slot is reported as a failed page.
-/

namespace PageBuilder.Document

open Relation (TransGen)
open PageCompiler

variable {document : Document} {catalog : Catalog} {options : CompileOptions}

theorem mem_compile_all {output : PageOutput} :
    output ∈ document.compileAll catalog options ↔ ∃ node ∈ document.pages,
      output = ⟨node.id, node.name, document.compilePage node.id catalog options⟩ := by
  rw [compileAll, compilePages, List.mem_map]
  constructor
  · rintro ⟨node, listed, rfl⟩
    exact ⟨node, listed, rfl⟩
  · rintro ⟨node, listed, rfl⟩
    exact ⟨node, listed, rfl⟩

theorem output_pages :
    (document.compileAll catalog options).map PageOutput.page =
      document.slots document.root pagesSlot := by
  rw [compileAll, compilePages, List.map_map]
  rfl

theorem mem_pages_iff (stored : document.Stored) {node : Node} :
    node ∈ document.pages ↔
      document.get? node.id = some node ∧ standsIn document.root pagesSlot node = true := by
  rw [pages, mem_children_in, mem_all_nodes_iff stored]

theorem has_output_iff (stored : document.Stored) {node : Node}
    (found : document.get? node.id = some node) :
    (∃ output ∈ document.compileAll catalog options, output.page = node.id) ↔
      standsIn document.root pagesSlot node = true := by
  constructor
  · rintro ⟨output, member, same⟩
    obtain ⟨other, listed, rfl⟩ := mem_compile_all.1 member
    obtain ⟨present, stands⟩ := (mem_pages_iff stored).1 listed
    have own : other.id = node.id := same
    rw [own, found] at present
    rwa [Option.some.inj present]
  · intro stands
    exact ⟨_, mem_compile_all.2 ⟨node, (mem_pages_iff stored).2 ⟨found, stands⟩, rfl⟩, rfl⟩

theorem compile_node_fails_iff (valid : document.Valid) {node : Node}
    (found : document.get? node.id = some node) :
    (∃ fault, document.compilePage node.id catalog options = .error fault) ↔
      node.type ≠ .page ∨ ∃ key, TransGen (Reads document node catalog.schema) key key := by
  constructor
  · rintro ⟨fault, failed⟩
    rcases (compile_page_error_iff valid).1 failed with missing | circling
    · obtain ⟨lookup, failure, _⟩ := missing
      refine .inl fun type => ?_
      rw [node_of_type_ok.2 ⟨found, type⟩] at failure
      cases failure
    · obtain ⟨page, cycle, there, ended, _⟩ := circling
      have round := (graph_order_fails_iff (holds_page valid there).1).1 ⟨cycle, ended⟩
      rw [(node_of_type_ok.1 there).1] at found
      cases found
      exact .inr round
  -- A page fails only by its state, and a node that is no page is refused by its type.
  · intro wrong
    by_cases type : node.type = .page
    · have round := wrong.resolve_left (fun other => other type)
      obtain ⟨cycle, failed⟩ := (compile_page_cycle_iff valid).2 ⟨node, found, type, round⟩
      exact ⟨_, failed⟩
    · have other : ¬∃ page, document.get? node.id = some page ∧ page.type = .page := by
        rintro ⟨page, there, isPage⟩
        rw [found] at there
        cases there
        exact type isPage
      obtain ⟨lookup, failed⟩ :=
        (compile_page_lookup_iff valid).2 (node_of_type_fails_iff.2 other)
      exact ⟨_, failed⟩

/-- The nodes in the slot for pages have one output each, which is the result of compiling that node
and fails if it is no page or its state reads itself. These are all pages and nothing else exactly
if the slot holds all pages and nothing else. -/
theorem outputs_follow_slot (valid : document.Valid) (catalog : Catalog)
    (options : CompileOptions) :
    let outputs := document.compileAll catalog options
    (outputs.map PageOutput.page).Nodup ∧
      (∀ node ∈ document.allNodes, (∃ output ∈ outputs, output.page = node.id) ↔
        standsIn document.root pagesSlot node = true) ∧
      (∀ output ∈ outputs, ∃ node, document.get? output.page = some node ∧
        output.name = node.name ∧
        output.result = document.compilePage output.page catalog options ∧
        ((∃ fault, output.result = .error fault) ↔
          node.type ≠ .page ∨ ∃ key, TransGen (Reads document node catalog.schema) key key)) ∧
      (∀ name page, document.pageNamed? name = some page →
        ((∃ output ∈ outputs, output.page = page.id) ↔
          standsIn document.root pagesSlot page = true)) ∧
      ((∀ node ∈ document.allNodes,
          (∃ output ∈ outputs, output.page = node.id) ↔ node.type = .page) ↔
        ∀ node ∈ document.allNodes,
          standsIn document.root pagesSlot node = true ↔ node.type = .page) := by
  intro outputs
  have listed : ∀ node ∈ document.allNodes, (∃ output ∈ outputs, output.page = node.id) ↔
      standsIn document.root pagesSlot node = true :=
    fun node member => has_output_iff valid.stored ((mem_all_nodes_iff valid.stored).1 member)
  refine ⟨?_, listed, ?_, ?_, ?_⟩
  · rw [output_pages]
    exact ids_nodup valid.stored document.root pagesSlot
  · intro output member
    obtain ⟨node, there, rfl⟩ := mem_compile_all.1 member
    have found := ((mem_pages_iff valid.stored).1 there).1
    exact ⟨node, found, rfl, rfl, compile_node_fails_iff valid found⟩
  · intro name page named
    have member := ((node_named_iff valid).1 (Option.filter_eq_some_iff.1 named).1).1
    exact listed page member
  · constructor
    · intro byType node member
      rw [← listed node member, byType node member]
    · intro kept node member
      rw [listed node member, kept node member]

/-- A page in a slot of another name, and a theme in the slot for pages. -/
def strayPage : Document :=
  (ofRoot "r").run
    [.addNode ⟨"p", "home", none, .empty, .page .empty⟩ "r" "drafts" (some "V"),
      .addNode ⟨"t", "dark", none, .empty, .theme⟩ "r" "pages" (some "V")]

theorem stray_page_compiled : strayPage.compileAll Catalog.builtin .usual =
    [⟨"t", "dark", strayPage.compilePage "t" Catalog.builtin .usual⟩] := by
  have sorted : strayPage.pages =
      strayPage.allNodes.filter (standsIn strayPage.root pagesSlot) :=
    List.mergeSort_of_pairwise (by decide +kernel)
  have pages : (strayPage.pages.map fun page => (page.id, page.name)) = [("t", "dark")] := by
    rw [sorted]
    decide +kernel
  have outputs := congrArg (List.map fun page : NodeId × String =>
    (⟨page.1, page.2, strayPage.compilePage page.1 Catalog.builtin .usual⟩ : PageOutput)) pages
  rw [List.map_map] at outputs
  exact outputs

/-- The page is found by its name and has a module, but the only output is the theme, which
fails. -/
theorem stray_page_passed_over :
    strayPage.Valid ∧ ∃ page compiled,
      strayPage.pageNamed? "home" = some page ∧ page.type = .page ∧
      strayPage.compilePage page.id Catalog.builtin .usual = .ok compiled ∧
      strayPage.compileAll Catalog.builtin .usual =
        [⟨"t", "dark", .error (.page (.lookup (.wrongType "t" .page .theme)))⟩] ∧
      ∀ output ∈ strayPage.compileAll Catalog.builtin .usual, output.page ≠ page.id := by
  have named : (strayPage.pageNamed? "home").map Node.id = some "p" := by decide +kernel
  obtain ⟨page, found, own⟩ := Option.map_eq_some_iff.1 named
  have type : page.type = .page := of_decide_eq_true (Option.filter_eq_some_iff.1 found).2
  have module : (strayPage.compilePage "p" Catalog.builtin .usual).map CompiledPage.component =
      .ok "Home" := by
    decide +kernel
  obtain ⟨compiled, done, _⟩ := Outcome.map_eq_ok.1 module
  have wrong : (strayPage.compilePage "t" Catalog.builtin .usual).map CompiledPage.component =
      .error (.page (.lookup (.wrongType "t" .page .theme))) := by
    decide +kernel
  have outputs := stray_page_compiled
  rw [Outcome.map_eq_error.1 wrong] at outputs
  refine ⟨valid_run (valid_of_root "r") _, page, compiled, found, type, ?_, outputs, ?_⟩
  · rw [own, done]
  · intro output member
    rw [outputs, List.mem_singleton] at member
    rw [member, own]
    decide

theorem outputs_follow_slot_sample :
    strayPage.Valid ∧
      (∀ output ∈ strayPage.compileAll Catalog.builtin .usual, output.page ≠ "p") ∧
      ∃ output ∈ strayPage.compileAll Catalog.builtin .usual, output.page = "t" ∧
        ∃ fault, output.result = .error fault := by
  have valid : strayPage.Valid := valid_run (valid_of_root "r") _
  obtain ⟨_, listed, results, _⟩ := outputs_follow_slot valid Catalog.builtin .usual
  have page : (strayPage.get? "p").map (fun node =>
      (node.id, standsIn strayPage.root pagesSlot node)) = some ("p", false) := by
    decide +kernel
  have theme : (strayPage.get? "t").map (fun node =>
      (node.id, node.type, standsIn strayPage.root pagesSlot node)) =
        some ("t", .theme, true) := by
    decide +kernel
  obtain ⟨node, found, outside⟩ := Option.map_eq_some_iff.1 page
  obtain ⟨own, apart⟩ := Prod.mk.inj outside
  obtain ⟨other, there, inside⟩ := Option.map_eq_some_iff.1 theme
  obtain ⟨otherId, rest⟩ := Prod.mk.inj inside
  obtain ⟨otherType, stands⟩ := Prod.mk.inj rest
  refine ⟨valid, ?_, ?_⟩
  · intro output member same
    have stood := (listed node (mem_all_nodes.2 ⟨"p", found⟩)).1 ⟨output, member, by rw [own, same]⟩
    rw [apart] at stood
    cases stood
  · obtain ⟨output, member, same⟩ := (listed other (mem_all_nodes.2 ⟨"t", there⟩)).2 stands
    rw [otherId] at same
    obtain ⟨failed, present, _, _, fails⟩ := results output member
    rw [same, there] at present
    cases present
    refine ⟨output, member, same, fails.2 (.inl ?_)⟩
    rw [otherType]
    decide

end PageBuilder.Document
