import PageBuilder.Proofs.Document.Codec
import PageBuilder.Proofs.OrderKey.Between

/-!
Which nodes are taken as a document. The check walks upwards from every node, at most as many steps
as there are nodes; what it lets pass are the nodes that the root brings in when children are added
again and again, and no others.
-/

namespace PageBuilder.Document

/-- The nodes that the root brings in: itself, and the children of what it has brought in. -/
inductive Grown (root : NodeId) (nodes : SortedMap Node) : NodeId → Prop
  | root {node : Node} (found : nodes.get? root = some node) : Grown root nodes root
  | child {parent id : NodeId} {node : Node} (grown : Grown root nodes parent)
      (found : nodes.get? id = some node) (placed : node.parent? = some parent) :
      Grown root nodes id

/-- Nodes that make a tree, told without any walk. -/
structure FormsTree (root : NodeId) (nodes : SortedMap Node) : Prop where
  stored : ∀ id node, nodes.get? id = some node → node.id = id
  top : ∃ node, nodes.get? root = some node ∧ node.type = .application ∧ node.placement = none
  placed : ∀ id node, nodes.get? id = some node → id ≠ root →
    ∃ placement parent, node.placement = some placement ∧
      nodes.get? placement.parent = some parent ∧ parent.type ∈ node.type.parents
  grown : ∀ id, (∃ node, nodes.get? id = some node) ↔ Grown root nodes id
  keyed : ∀ id node placement, nodes.get? id = some node → node.placement = some placement →
    OrderKey.IsKey placement.index
  apart : ∀ left right first second placement, nodes.get? left = some first →
    nodes.get? right = some second → first.placement = some placement →
    second.placement = some placement → left = right
  named : ∀ left right first second, nodes.get? left = some first →
    nodes.get? right = some second → first.name = second.name → left = right

variable {root : NodeId} {nodes : SortedMap Node} {names : SortedMap NodeId}

/-- What the root brings in lies below it, and the other way round. -/
theorem grown_iff (top : ∃ node, nodes.get? root = some node) {id : NodeId} :
    Grown root nodes id ↔ ∃ distance, Under ⟨root, nodes, names⟩ root distance id := by
  constructor
  · intro grown
    induction grown with
    | root => exact ⟨0, .self⟩
    | @child parent id node _ found placed ih =>
        obtain ⟨distance, under⟩ := ih
        have here : get? ⟨root, nodes, names⟩ id = some node := found
        have step : parentId? ⟨root, nodes, names⟩ id = some parent :=
          (parent_id_of_get here).trans placed
        exact ⟨distance + 1, .up step under⟩
  · intro below
    obtain ⟨distance, under⟩ := below
    induction under with
    | self =>
        obtain ⟨node, found⟩ := top
        exact .root found
    | up step _ ih =>
        obtain ⟨node, found, placed⟩ := Option.bind_eq_some_iff.1 step
        exact .child ih found placed

/-- Nodes that make a tree pass every part of the check, whatever names are kept beside them. -/
theorem FormsTree.well_formed (forms : FormsTree root nodes) :
    WellFormed ⟨root, nodes, names⟩ where
  root := forms.top
  stored := fun found => forms.stored _ _ found
  named := fun left right same => forms.named _ _ _ _ left right same
  unplaced := by
    intro id node found unplaced
    by_contra other
    obtain ⟨placement, _, placed, _⟩ := forms.placed id node found other
    rw [unplaced] at placed
    cases placed
  fits := by
    intro id node placement found here
    have other : id ≠ root := by
      intro same
      obtain ⟨top, present, _, unplaced⟩ := forms.top
      have own : node = top := Option.some.inj (found.symm.trans (same ▸ present))
      rw [own, unplaced] at here
      cases here
    obtain ⟨placement, parent, placed, present, fits⟩ := forms.placed id node found other
    rw [here] at placed
    cases placed
    exact ⟨parent, present, decide_eq_true fits⟩
  keyed := fun found placed => OrderKey.check_ok_iff_is_key.2 (forms.keyed _ _ _ found placed)
  apart := fun left right first second => forms.apart _ _ _ _ _ left right first second
  reaches := by
    intro id node found
    obtain ⟨top, present, _⟩ := forms.top
    exact (grown_iff ⟨top, present⟩).1 ((forms.grown id).1 ⟨node, found⟩)

theorem WellFormed.forms_tree (wellFormed : WellFormed ⟨root, nodes, names⟩) :
    FormsTree root nodes where
  stored := fun _ _ found => wellFormed.stored found
  top := wellFormed.root
  placed := by
    intro id node found other
    cases here : node.placement with
    | none => exact absurd (wellFormed.unplaced found here) other
    | some placement =>
        obtain ⟨parent, present, fits⟩ := wellFormed.fits found here
        exact ⟨placement, parent, rfl, present, of_decide_eq_true fits⟩
  grown := by
    intro id
    rw [grown_iff wellFormed.rooted.present]
    constructor
    · intro here
      obtain ⟨node, found⟩ := here
      exact wellFormed.reaches found
    · intro below
      obtain ⟨distance, under⟩ := below
      exact under.present wellFormed.rooted.present
  keyed := fun _ _ _ found placed => OrderKey.check_ok_iff_is_key.1 (wellFormed.keyed found placed)
  apart := fun _ _ _ _ _ left right first second => wellFormed.apart left right first second
  named := fun _ _ _ _ left right same => wellFormed.named left right same

theorem nodes_ok_iff {document : Document} : ofNodes root nodes = .ok document ↔
    document = ⟨root, nodes, SortedMap.ofList
      (nodes.values.map fun node => (node.name, node.id))⟩ ∧ document.WellFormed := by
  constructor
  · intro accepted
    simp only [ofNodes] at accepted
    split at accepted
    · rename_i passed
      cases accepted
      exact ⟨rfl, violations_nil_iff.1 passed⟩
    · cases accepted
  · intro made
    obtain ⟨rfl, wellFormed⟩ := made
    simp only [ofNodes, violations_nil_iff.2 wellFormed]

/-- Nodes are taken as a document exactly if they make a tree. What was taken is taken again, from
its root and its nodes, as the same document. -/
theorem nodes_taken_iff (root : NodeId) (nodes : SortedMap Node) :
    ((∃ document, ofNodes root nodes = .ok document) ↔ FormsTree root nodes) ∧
      ∀ document, ofNodes root nodes = .ok document → document.root = root ∧
        document.nodes = nodes ∧ ofNodes document.root document.nodes = .ok document := by
  constructor
  · constructor
    · intro accepted
      obtain ⟨document, accepted⟩ := accepted
      obtain ⟨rfl, wellFormed⟩ := nodes_ok_iff.1 accepted
      exact wellFormed.forms_tree
    · intro forms
      exact ⟨_, nodes_ok_iff.2 ⟨rfl, forms.well_formed⟩⟩
  · intro document accepted
    obtain ⟨made, _⟩ := nodes_ok_iff.1 accepted
    subst made
    exact ⟨rfl, rfl, accepted⟩

/-- A page with two elements in each other. -/
def sampleChain : Document :=
  (ofRoot "r").run
    [.addNode ⟨"p", "home", none, .empty, .page .empty⟩ "r" "pages" none,
      .addNode ⟨"e", "outer", none, .empty, .element .empty⟩ "p" "children" none,
      .addNode ⟨"f", "inner", none, .empty, .element .empty⟩ "e" "children" none]

/-- The same nodes, but the outer element stands in the inner one. -/
def sampleCircle : SortedMap Node :=
  sampleChain.nodes.insert "e"
    ⟨"e", "outer", some ⟨"f", "children", "V"⟩, .empty, .element .empty⟩

theorem nodes_taken_iff_sample :
    FormsTree "r" sampleChain.nodes ∧ Grown "r" sampleChain.nodes "f" ∧
      ofNodes sampleChain.root sampleChain.nodes = .ok sampleChain ∧
      ¬FormsTree "r" sampleCircle := by
  have valid : sampleChain.Valid := valid_run (valid_of_root "r") _
  have accepted := of_nodes_same valid
  have top : sampleChain.root = "r" := by decide +kernel
  rw [top] at accepted
  have forms : FormsTree "r" sampleChain.nodes :=
    (nodes_taken_iff "r" sampleChain.nodes).1.1 ⟨sampleChain, accepted⟩
  have inside : (sampleChain.nodes.get? "f").isSome = true := by decide +kernel
  refine ⟨forms, ?_, ?_, ?_⟩
  · apply (forms.grown "f").1
    exact Option.isSome_iff_exists.1 inside
  · exact ((nodes_taken_iff "r" sampleChain.nodes).2 sampleChain accepted).2.2
  · intro circle
    obtain ⟨document, taken⟩ := (nodes_taken_iff "r" sampleCircle).1.2 circle
    have refused : (ofNodes "r" sampleCircle).toBool = false := by decide +kernel
    rw [taken] at refused
    cases refused

end PageBuilder.Document
