import PageBuilder.Action
import PageBuilder.Document.Codec
import PageBuilder.Proofs.Document.Edit

/-!
Runs of edits. Whatever is done to a document, and in whatever order, it stays a tree that passes
the check, and its names lead to its nodes.
-/

namespace PageBuilder.Document

/-- A document starts with its root alone, or as nodes that pass the check. -/
inductive Origin : Document → Prop
  | fresh (root : NodeId) : Origin (ofRoot root)
  | loaded {root : NodeId} {nodes : SortedMap Node} {document : Document}
      (accepted : ofNodes root nodes = .ok document) : Origin document

/-- An edit that fails leaves the document as it is. -/
def step (document : Document) (action : Action) : Document :=
  match action.apply document with
  | .ok next => next
  | .error _ => document

def run (document : Document) (actions : List Action) : Document := actions.foldl step document

/-- A root alone passes the check, as any other nodes have to. -/
theorem of_root_accepted (root : NodeId) :
    ofNodes root (ofRoot root).nodes = .ok (ofRoot root) := by
  have entries : (ofRoot root).nodes.entries =
      [(root, ⟨root, "application", none, .empty, .application⟩)] := rfl
  have passed : (ofRoot root).violations = [] := by
    rw [violations, entries]
    simp [rootViolations, nodesViolations, nodeViolations, placementViolations, get?, ofRoot,
      Node.type, NodeKind.type]
  have same : (⟨root, (ofRoot root).nodes, SortedMap.ofList
      ((ofRoot root).nodes.values.map fun node => (node.name, node.id))⟩ : Document) =
        ofRoot root := rfl
  rw [ofNodes, same, passed]

theorem valid_of_root (root : NodeId) : (ofRoot root).Valid :=
  valid_of_nodes (of_root_accepted root)

theorem Origin.valid {document : Document} (origin : Origin document) : document.Valid := by
  cases origin with
  | fresh root => exact valid_of_root root
  | loaded accepted => exact valid_of_nodes accepted

theorem valid_apply {document next : Document} (valid : document.Valid) {action : Action}
    (applied : action.apply document = .ok next) : next.Valid := by
  cases action with
  | addNode node parent slot index => exact valid_add valid applied
  | moveNode id parent slot index => exact valid_move valid applied
  | removeNode id => exact valid_remove valid applied
  | setNodeName id name => exact valid_rename valid applied
  | setValue id space name value => exact valid_set_value valid applied
  | setPageState page slot value =>
      obtain ⟨node, change, here, rfl⟩ := set_page_state_ok applied
      exact valid_with_state valid here
  | removePageState page slot =>
      obtain ⟨node, change, here, rfl⟩ := remove_page_state_ok applied
      exact valid_with_state valid here

theorem valid_step {document : Document} (valid : document.Valid) (action : Action) :
    (document.step action).Valid := by
  rw [step]
  split
  · rename_i next applied
    exact valid_apply valid applied
  · exact valid

theorem valid_run {document : Document} (valid : document.Valid) (actions : List Action) :
    (document.run actions).Valid := by
  induction actions generalizing document with
  | nil => exact valid
  | cons action rest ih => exact ih (valid_step valid action)

/-- The check finds nothing after any run of edits, and the index of names, which no edit makes
anew, still says which node bears a name. -/
theorem run_keeps_tree_and_names {start : Document} (origin : Origin start)
    (actions : List Action) :
    (start.run actions).violations = [] ∧
      (∃ root, (start.run actions).get? (start.run actions).root = some root ∧
        root.type = .application ∧ root.placement = none) ∧
      (∀ node ∈ (start.run actions).allNodes, ∃ distance,
        Under (start.run actions) (start.run actions).root distance node.id) ∧
      (∀ name node, (start.run actions).nodeNamed? name = some node ↔
        node ∈ (start.run actions).allNodes ∧ node.name = name) ∧
      ∀ name, (start.run actions).hasName name = true ↔
        ∃ node ∈ (start.run actions).allNodes, node.name = name := by
  have valid := valid_run origin.valid actions
  refine ⟨violations_nil_iff.2 valid.toWellFormed, valid.root, ?_, ?_, ?_⟩
  · intro node member
    exact valid.reaches ((mem_all_nodes_iff valid.stored).1 member)
  · intro name node
    exact node_named_iff valid
  · intro name
    exact has_name_iff valid

/-- A page with two elements of one name, of which the first moves into the second and goes with
it. The second addition of the page and the move of the page below itself fail. -/
def sampleEdits : List Action :=
  let page : Node := ⟨"p", "home", none, .empty, .page .empty⟩
  let element : Node := ⟨"e", "text", none, .empty, .element .empty⟩
  [.addNode page "r" "pages" none, .addNode page "r" "pages" none,
    .addNode element "p" "children" none,
    .addNode { element with id := "f" } "p" "children" (some "A"),
    .moveNode "e" "f" "children" none, .moveNode "p" "e" "children" none,
    .setNodeName "f" "home", .setPageState "p" "count" .null, .removeNode "f"]

theorem run_keeps_tree_and_names_sample :
    Origin (ofRoot "r") ∧ ((ofRoot "r").run sampleEdits).violations = [] ∧
      ((ofRoot "r").run sampleEdits).nodeNamed? "text" = none := by
  have kept := run_keeps_tree_and_names (.fresh "r") sampleEdits
  refine ⟨.fresh "r", kept.1, ?_⟩
  decide +kernel

end PageBuilder.Document
