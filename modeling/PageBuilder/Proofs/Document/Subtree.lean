import PageBuilder.Proofs.Document.Queries

/-!
A node with all that lies below it, removed or moved in one edit. Which nodes these are is told by
what lies above them; the edits find them from above, or change one placement and let them follow.
-/

namespace PageBuilder.Document

section Edits

variable (document next : Document) (id : NodeId)

/-- A node goes with another if it is that one or has it above itself. -/
def GoesWith (lower : NodeId) : Prop :=
  lower = id ∨ ∃ ancestor ∈ document.ancestors lower, ancestor.id = id

/-- The nodes that went, and just their names, are gone. -/
structure Removed : Prop where
  root : next.root = document.root
  nodes : ∀ lower node, next.get? lower = some node ↔
    document.get? lower = some node ∧ ¬GoesWith document id lower
  names : ∀ name lower, next.names.get? name = some lower ↔
    document.names.get? name = some lower ∧ ¬GoesWith document id lower
  freed : ∀ name, document.hasName name = true ∧ next.hasName name = false ↔
    ∃ node ∈ document.allNodes, GoesWith document id node.id ∧ node.name = name

variable (parent : NodeId) (slot : String) (index : Option String)

/-- A node may move into one of a fitting type that does not go with it, to a key of its own. -/
structure MayMove : Prop where
  fits : ∃ node upper, document.get? id = some node ∧ document.get? parent = some upper ∧
    upper.type ∈ node.type.parents
  other : parent ≠ id
  outside : ∀ lower ∈ document.descendants id, lower.id ≠ parent
  wanted : ∀ key, index = some key → OrderKey.IsKey key ∧
    ∀ sibling node, document.get? sibling = some node →
      node.placement = some ⟨parent, slot, key⟩ → sibling = id

/-- A node has moved with what lies below it: nothing but its placement is new. A key that was not
asked for stands behind those of all siblings. -/
structure Moved : Prop where
  root : next.root = document.root
  names : next.names = document.names
  others : ∀ other, other ≠ id → next.get? other = document.get? other
  placed : ∃ node key, document.get? id = some node ∧
    next.get? id = some { node with placement := some ⟨parent, slot, key⟩ } ∧
    (∀ wanted, index = some wanted → key = wanted) ∧
    (index = none → ∀ sibling ∈ document.childrenIn parent slot, sibling.id ≠ id →
      indexOf sibling < key)
  below : next.descendants id = document.descendants id
  above : ∃ upper, document.get? parent = some upper ∧
    next.ancestors id = document.ancestors parent ++ [upper]

end Edits

variable {document next : Document} {id : NodeId}

theorem goes_with_iff (wellFormed : document.WellFormed) {lower : NodeId} {node : Node}
    (found : document.get? lower = some node) :
    GoesWith document id lower ↔ ∃ distance, Under document id distance lower := by
  constructor
  · intro goes
    rcases goes with rfl | ⟨ancestor, member, rfl⟩
    · exact ⟨0, .self⟩
    · obtain ⟨_, distance, under⟩ :=
        (mem_ancestors_iff wellFormed.stored wellFormed.rooted found).1 member
      exact ⟨distance + 1, under⟩
  · intro below
    obtain ⟨distance, under⟩ := below
    cases distance with
    | zero => exact .inl under.eq_of_zero
    | succ distance =>
        obtain ⟨ancestor, present⟩ := under.present_upper ⟨node, found⟩ wellFormed.parent_present
        have own : ancestor.id = id := wellFormed.stored present
        subst own
        exact .inr ⟨ancestor, (mem_ancestors_iff wellFormed.stored wellFormed.rooted found).2
          ⟨present, distance, under⟩, rfl⟩

theorem exists_remove {node : Node} {placement : Placement}
    (here : document.get? id = some node) (placed : node.placement = some placement) :
    ∃ next, document.remove id = .ok next := by
  simp [remove, node_ok.2 here, found, bind, Except.bind, placed]

theorem remove_unplaced {node : Node} (here : document.get? id = some node)
    (unplaced : node.placement = none) :
    document.remove id = .error (.lookup (.noParent id)) := by
  simp [remove, node_ok.2 here, found, bind, Except.bind, unplaced]

theorem remove_missing (missing : document.get? id = none) :
    document.remove id = .error (.lookup (.nodeNotFound id)) := by
  simp [remove, Document.node, missing, found, bind, Except.bind]

theorem removed_of_ok (valid : document.Valid) (removed : document.remove id = .ok next) :
    Removed document next id := by
  have wellFormed := valid.toWellFormed
  have nodes (lower : NodeId) (node : Node) : next.get? lower = some node ↔
      document.get? lower = some node ∧ ¬GoesWith document id lower := by
    rw [get_remove wellFormed removed]
    refine and_congr_right fun found => ?_
    rw [goes_with_iff wellFormed found, not_exists]
  have names (name : String) (lower : NodeId) : next.names.get? name = some lower ↔
      document.names.get? name = some lower ∧ ¬GoesWith document id lower := by
    rw [(valid_remove valid removed).indexed, valid.indexed]
    simp only [nodes]
    constructor
    · intro bears
      obtain ⟨node, ⟨found, stays⟩, same⟩ := bears
      exact ⟨⟨node, found, same⟩, stays⟩
    · intro held
      obtain ⟨⟨node, found, same⟩, stays⟩ := held
      exact ⟨node, ⟨found, stays⟩, same⟩
  -- A name is borne once, so it is free as soon as its node is gone.
  refine ⟨root_remove removed, nodes, names, fun name => ?_⟩
  rw [hasName, hasName, document.names.contains_iff, Bool.eq_false_iff, ne_eq,
    next.names.contains_iff]
  constructor
  · intro held
    obtain ⟨⟨lower, known⟩, gone⟩ := held
    obtain ⟨node, found, same⟩ := (valid.indexed name lower).1 known
    have own : node.id = lower := valid.stored found
    subst own
    refine ⟨node, mem_all_nodes.2 ⟨_, found⟩, ?_, same⟩
    by_contra stays
    exact gone ⟨node.id, (names name node.id).2 ⟨known, stays⟩⟩
  · intro held
    obtain ⟨node, member, goes, rfl⟩ := held
    have found := (mem_all_nodes_iff valid.stored).1 member
    have known := (valid.indexed node.name node.id).2 ⟨node, found, rfl⟩
    refine ⟨⟨node.id, known⟩, ?_⟩
    intro kept
    obtain ⟨lower, still⟩ := kept
    obtain ⟨before, stays⟩ := (names node.name lower).1 still
    rw [known] at before
    cases before
    exact stays goes

/-- Only the root and nodes that are not there cannot be removed. -/
theorem remove_error_iff (valid : document.Valid) {fault : EditFault} :
    document.remove id = .error fault ↔
      document.get? id = none ∧ fault = .lookup (.nodeNotFound id) ∨
        id = document.root ∧ fault = .lookup (.noParent id) := by
  obtain ⟨root, atRoot, _, free⟩ := valid.root
  cases here : document.get? id with
  | none =>
      have other : id ≠ document.root := by
        rintro rfl
        rw [here] at atRoot
        cases atRoot
      rw [remove_missing here, Except.error.injEq, eq_comm]
      simp [other]
  | some node =>
      cases placed : node.placement with
      | none =>
          have top := valid.unplaced here placed
          rw [remove_unplaced here placed, Except.error.injEq, eq_comm]
          simp [top]
      | some placement =>
          obtain ⟨next, removed⟩ := exists_remove here placed
          have other : id ≠ document.root := by
            rintro rfl
            cases here.symm.trans atRoot
            rw [free] at placed
            cases placed
          rw [removed]
          simp [other]

/-- Every node but the root can be removed. With it go the nodes that have it above themselves, and
their names; all other nodes and names stay. -/
theorem subtree_removed (valid : document.Valid) :
    (∀ id node, document.get? id = some node → id ≠ document.root →
        ∃ next, document.remove id = .ok next ∧ next.Valid ∧ Removed document next id) ∧
      ∀ id fault, document.remove id = .error fault ↔
        document.get? id = none ∧ fault = .lookup (.nodeNotFound id) ∨
          id = document.root ∧ fault = .lookup (.noParent id) := by
  constructor
  · intro id node found other
    cases placed : node.placement with
    | none => exact absurd (valid.unplaced found placed) other
    | some placement =>
        obtain ⟨next, removed⟩ := exists_remove found placed
        exact ⟨next, removed, valid_remove valid removed, removed_of_ok valid removed⟩
  · intro id fault
    exact remove_error_iff valid

theorem subtree_removed_sample :
    sampleTree.Valid ∧ ∃ node next, sampleTree.get? "b" = some node ∧
      sampleTree.remove "b" = .ok next ∧ Removed sampleTree next "b" ∧
      next.nodes.keys = ["a", "p", "r", "s"] ∧
      next.names.keys = ["a", "application", "home", "sum"] := by
  have there : (sampleTree.get? "b").isSome = true := by decide +kernel
  obtain ⟨node, found⟩ := Option.isSome_iff_exists.1 there
  obtain ⟨next, removed, _, gone⟩ :=
    (subtree_removed sample_tree_valid).1 "b" node found (by decide +kernel)
  have keys : (sampleTree.remove "b").map (fun next => (next.nodes.keys, next.names.keys)) =
      .ok (["a", "p", "r", "s"], ["a", "application", "home", "sum"]) := by decide +kernel
  obtain ⟨other, again, same⟩ := Outcome.map_eq_ok.1 keys
  cases removed.symm.trans again
  obtain ⟨nodes, names⟩ := Prod.mk.inj same
  exact ⟨sample_tree_valid, node, next, found, removed, gone, nodes, names⟩

/-- A walk goes the same way where what it meets has the same children. -/
theorem Descends.congr {other : Document} {siblings nodes : List Node}
    (walk : Descends document siblings nodes)
    (same : ∀ node ∈ nodes, other.children node.id = document.children node.id) :
    Descends other siblings nodes := by
  induction walk with
  | done => exact .done
  | @node top siblings below rest _ _ down on =>
      refine .node ?_ (on fun node met => same node ?_)
      · rw [same top List.mem_cons_self]
        exact down fun node met => same node (List.mem_cons_of_mem _ (List.mem_append_left _ met))
      · exact List.mem_cons_of_mem _ (List.mem_append_right _ met)

section Put

variable {node : Node} {names : SortedMap NodeId}

theorem children_in_put_apart (wellFormed : document.WellFormed)
    (after : (document.put node names).WellFormed) {old : Node}
    (found : document.get? node.id = some old) {upper : NodeId} (left : old.parent? ≠ some upper)
    (elsewhere : node.parent? ≠ some upper) (slot : String) :
    (document.put node names).childrenIn upper slot = document.childrenIn upper slot := by
  have apart {node : Node} (placed : node.parent? ≠ some upper) :
      standsIn upper slot node = false := by
    rw [Bool.eq_false_iff]
    intro stands
    obtain ⟨placement, here, same, _⟩ := stands_in_iff.1 stands
    exact placed (by rw [Node.parent?, here, Option.map_some, same])
  rw [children_put_elsewhere wellFormed after (apart elsewhere), without, List.filter_eq_self]
  intro sibling member
  obtain ⟨listed, stands⟩ := mem_children_in.1 member
  rw [decide_eq_true_eq]
  intro same
  have present := (mem_all_nodes_iff wellFormed.stored).1 listed
  rw [same, found] at present
  cases present
  rw [apart left] at stands
  cases stands

/-- A node that leaves one parent for another changes the children of no third one. -/
theorem children_put_apart (wellFormed : document.WellFormed)
    (after : (document.put node names).WellFormed) {old : Node}
    (found : document.get? node.id = some old) {upper : NodeId} (left : old.parent? ≠ some upper)
    (elsewhere : node.parent? ≠ some upper) :
    (document.put node names).children upper = document.children upper := by
  have same := children_in_put_apart wellFormed after found left elsewhere
  have slots : (document.put node names).slotsOf upper = document.slotsOf upper := by
    apply SortedMap.keys_eq_of_mem
    intro slot
    have held {document : Document} : slot ∈ document.slotsOf upper ↔
        ∃ node, node ∈ document.childrenIn upper slot := by
      simp only [mem_slots_of, mem_children_in]
    exact held.trans (by rw [same slot]; exact held.symm)
  rw [children, childSlots, slots, children, childSlots]
  simp only [same]

theorem ancestors_put_outside (wellFormed : document.WellFormed)
    (after : (document.put node names).WellFormed) {lower : NodeId} {other : Node}
    (found : document.get? lower = some other)
    (outside : ∀ steps, ¬Under document node.id steps lower) :
    (document.put node names).ancestors lower = document.ancestors lower := by
  -- By the distance from the root: what is above a node that does not go along does not either.
  obtain ⟨distance, under⟩ := wellFormed.reaches found
  induction distance generalizing lower other with
  | zero =>
      rw [under.eq_of_zero, ancestors_root wellFormed]
      exact ancestors_root after
  | succ distance ih =>
      obtain ⟨above, step, rest⟩ := under.of_succ
      have kept {id : NodeId} (outside : ∀ steps, ¬Under document node.id steps id) :
          (document.put node names).get? id = document.get? id := by
        rw [get_put, if_neg]
        rintro rfl
        exact outside 0 .self
      have further (steps : Nat) : ¬Under document node.id steps above := fun here =>
        outside (steps + 1) (.up step here)
      obtain ⟨parent, present⟩ := wellFormed.parent_present step
      have own : parent.id = above := wellFormed.stored present
      subst own
      have stored : other.id = lower := wellFormed.stored found
      subst stored
      have placed := (parent_of_eq_some_iff wellFormed.stored found).2 ⟨step, present⟩
      have still : (document.put node names).parentOf? other = some parent := by
        rw [parentOf?, (parent_id_of_get found).symm.trans step, Option.bind_some, kept further,
          present]
      rw [ancestors_of_parent wellFormed found placed,
        ancestors_of_parent after ((kept outside).trans found) still, ih present further rest]

section Placed

variable (wellFormed : document.WellFormed) (after : (document.put node names).WellFormed)
  {old upper : Node} {placement : Placement} (placed : node.placement = some placement)
  (outside : ∀ steps, ¬Under document node.id steps placement.parent)

include wellFormed after placed outside

theorem children_put_below (found : document.get? node.id = some old) {lower : NodeId}
    {distance : Nat} (under : Under document node.id distance lower) :
    (document.put node names).children lower = document.children lower := by
  apply children_put_apart wellFormed after found
  · intro step
    rw [← parent_id_of_get found] at step
    exact wellFormed.not_under_child step distance under
  · intro step
    rw [Node.parent?, placed] at step
    cases step
    exact outside distance under

theorem descendants_put (found : document.get? node.id = some old) :
    (document.put node names).descendants node.id = document.descendants node.id := by
  have same {lower : NodeId} {distance : Nat} (under : Under document node.id distance lower) :=
    children_put_below wellFormed after placed outside found under
  -- No node that the old walk meets has other children now, so it is a walk of the new document.
  have walk : Descends (document.put node names) (document.children node.id)
      (document.descendants node.id) := by
    apply (descends_descendants wellFormed node.id).congr
    intro lower member
    obtain ⟨_, distance, under⟩ := (mem_descendants_iff wellFormed.stored wellFormed.rooted
      ⟨old, found⟩).1 member
    exact same under
  rw [← same .self] at walk
  exact walk.unique (descends_descendants after node.id)

theorem ancestors_put (present : document.get? placement.parent = some upper) :
    (document.put node names).ancestors node.id =
      document.ancestors placement.parent ++ [upper] := by
  have there : (document.put node names).get? node.id = some node := by rw [get_put, if_pos rfl]
  have own : upper.id = placement.parent := wellFormed.stored present
  have stands : (document.put node names).parentOf? node = some upper := by
    rw [parentOf?, Node.parent?, placed, Option.map_some, Option.bind_some, get_put, if_neg,
      present]
    intro same
    exact outside 0 (same ▸ .self)
  rw [ancestors_of_parent after there stands, own,
    ancestors_put_outside wellFormed after present outside]

end Placed

end Put

theorem choose_index_some_iff {parent : NodeId} {slot wanted key : String}
    {moving : Option NodeId} :
    document.chooseIndex parent slot (some wanted) moving = .ok key ↔
      OrderKey.IsKey wanted ∧ (∀ sibling ∈ document.childrenIn parent slot,
        some sibling.id ≠ moving → indexOf sibling ≠ wanted) ∧ key = wanted := by
  simp only [chooseIndex, Outcome.bind_eq_ok, keyed_ok, require_ok, Bool.not_eq_true',
    List.any_eq_false, List.mem_filter, bne_iff_ne, decide_eq_true_eq, and_imp, exists_const,
    Except.ok.injEq]
  constructor
  · intro chosen
    obtain ⟨_, passed, free, same⟩ := chosen
    exact ⟨OrderKey.check_ok_iff_is_key.1 passed, free, same.symm⟩
  · intro held
    obtain ⟨isKey, free, same⟩ := held
    exact ⟨(), OrderKey.check_ok_iff_is_key.2 isKey, free, same.symm⟩

variable {parent : NodeId} {slot : String} {index : Option String}

/-- There always is a key behind all siblings. -/
theorem choose_index_none (wellFormed : document.WellFormed)
    (present : ∃ upper, document.get? parent = some upper) (slot : String)
    (moving : Option NodeId) :
    ∃ key, document.chooseIndex parent slot none moving = .ok key ∧
      ∀ sibling ∈ document.childrenIn parent slot, some sibling.id ≠ moving →
        indexOf sibling < key := by
  obtain ⟨wanted, key, asked, chosen, lower, _⟩ := chosen_at wellFormed present slot none moving
  cases asked
  exact ⟨key, chosen, lower⟩

theorem exists_index_iff (wellFormed : document.WellFormed)
    (present : ∃ upper, document.get? parent = some upper) :
    (∃ key, document.chooseIndex parent slot index (some id) = .ok key) ↔
      ∀ key, index = some key → OrderKey.IsKey key ∧
        ∀ sibling node, document.get? sibling = some node →
          node.placement = some ⟨parent, slot, key⟩ → sibling = id := by
  cases index with
  | none =>
      obtain ⟨key, chosen, _⟩ := choose_index_none wellFormed present slot (some id)
      exact iff_of_true ⟨key, chosen⟩ (fun _ asked => by cases asked)
  | some wanted =>
      simp only [choose_index_some_iff, Option.some.injEq, forall_eq']
      constructor
      · intro held
        obtain ⟨_, isKey, free, _⟩ := held
        refine ⟨isKey, ?_⟩
        intro sibling node found placed
        obtain ⟨member, indexed⟩ := sibling_of_placement found placed
        by_contra other
        refine free node member ?_ indexed
        rw [wellFormed.stored found]
        exact fun same => other (Option.some.inj same)
      · intro held
        obtain ⟨isKey, free⟩ := held
        refine ⟨wanted, isKey, ?_, rfl⟩
        intro sibling member other indexed
        obtain ⟨listed, stands⟩ := mem_children_in.1 member
        obtain ⟨placement, placed, rfl, rfl⟩ := stands_in_iff.1 stands
        rw [index_of_placed placed] at indexed
        subst indexed
        have found := (mem_all_nodes_iff wellFormed.stored).1 listed
        exact other (congrArg some (free sibling.id sibling found placed))

theorem outside_iff (wellFormed : document.WellFormed)
    (present : ∃ upper, document.get? parent = some upper) :
    (∀ lower ∈ document.descendants id, lower.id ≠ parent) ↔
      ∀ ancestor ∈ document.ancestors parent, ancestor.id ≠ id := by
  obtain ⟨upper, found⟩ := present
  have own : upper.id = parent := wellFormed.stored found
  subst own
  have listed : upper ∈ document.allNodes := mem_all_nodes.2 ⟨upper.id, found⟩
  constructor
  · intro apart ancestor member same
    exact apart upper ((mem_descendants_iff_ancestor wellFormed).2
      ⟨listed, ancestor, member, same⟩) rfl
  · intro apart lower member same
    obtain ⟨_, ancestor, above, own⟩ := (mem_descendants_iff_ancestor wellFormed).1 member
    rw [same] at above
    exact apart ancestor above own

theorem move_ok_iff (wellFormed : document.WellFormed) :
    (∃ next, document.move id parent slot index = .ok next) ↔
      MayMove document id parent slot index := by
  constructor
  · intro accepted
    obtain ⟨next, moved⟩ := accepted
    obtain ⟨node, upper, key, found, present, fit, other, acyclic, chosen, _⟩ := move_ok moved
    exact ⟨⟨node, upper, found, present, of_decide_eq_true fit⟩, other.symm,
      (outside_iff wellFormed ⟨upper, present⟩).2 acyclic,
      (exists_index_iff wellFormed ⟨upper, present⟩).1 ⟨key, chosen⟩⟩
  · intro may
    obtain ⟨⟨node, upper, found, present, fit⟩, other, outside, wanted⟩ := may
    obtain ⟨key, chosen⟩ := (exists_index_iff wellFormed ⟨upper, present⟩).2 wanted
    exact exists_move found present (decide_eq_true fit) other.symm
      ((outside_iff wellFormed ⟨upper, present⟩).1 outside) chosen

theorem moved_of_ok (valid : document.Valid)
    (moved : document.move id parent slot index = .ok next) :
    Moved document next id parent slot index := by
  have wellFormed := valid.toWellFormed
  have after := (valid_move valid moved).toWellFormed
  obtain ⟨node, upper, key, found, present, fit, other, acyclic, chosen, rfl⟩ := move_ok moved
  have own : node.id = id := valid.stored found
  subst own
  have names : (document.replace { node with placement := some ⟨parent, slot, key⟩ }).names =
      document.names := by
    simp only [replace, found, if_true]
  have shape : document.replace { node with placement := some ⟨parent, slot, key⟩ } =
      document.put { node with placement := some ⟨parent, slot, key⟩ } document.names := by
    rw [← names]
    rfl
  rw [shape] at after ⊢
  have outside (steps : Nat) : ¬Under document node.id steps parent := by
    intro under
    cases steps with
    | zero => exact other under.eq_of_zero.symm
    | succ steps =>
        exact acyclic node ((mem_ancestors_iff valid.stored wellFormed.rooted present).2
          ⟨found, steps, under⟩) rfl
  refine ⟨rfl, rfl, ?_, ?_, descendants_put wellFormed after rfl outside found, upper, present,
    ancestors_put wellFormed after rfl outside present⟩
  · intro another different
    rw [get_put, if_neg different]
  · refine ⟨node, key, found, by rw [get_put, if_pos rfl], ?_, ?_⟩
    · rintro wanted rfl
      exact (choose_index_some_iff.1 chosen).2.2
    · rintro rfl sibling member different
      obtain ⟨last, again, lower⟩ :=
        choose_index_none wellFormed ⟨upper, present⟩ slot (some node.id)
      cases chosen.symm.trans again
      exact lower sibling member fun same => different (Option.some.inj same)

/-- A node moves exactly where it may, and what lies below it goes along as it is. -/
theorem subtree_moved (valid : document.Valid) (id parent : NodeId) (slot : String)
    (index : Option String) :
    ((∃ next, document.move id parent slot index = .ok next) ↔
        MayMove document id parent slot index) ∧
      ∀ next, document.move id parent slot index = .ok next →
        next.Valid ∧ Moved document next id parent slot index := by
  refine ⟨move_ok_iff valid.toWellFormed, ?_⟩
  intro next moved
  exact ⟨valid_move valid moved, moved_of_ok valid moved⟩

theorem subtree_moved_sample :
    sampleTree.Valid ∧
      (∃ next, sampleTree.move "b" "a" "children" none = .ok next ∧
        Moved sampleTree next "b" "a" "children" none ∧
        (next.descendants "b").map Node.id = ["c"] ∧
        (next.ancestors "b").map Node.id = ["r", "p", "a"]) ∧
      ¬MayMove sampleTree "b" "c" "children" none := by
  have ways : (sampleTree.move "b" "a" "children" none).map (fun next =>
      ((next.descendants "b").map Node.id, (next.ancestors "b").map Node.id)) =
        .ok (["c"], ["r", "p", "a"]) := by decide +kernel
  obtain ⟨next, moved, same⟩ := Outcome.map_eq_ok.1 ways
  obtain ⟨below, above⟩ := Prod.mk.inj same
  refine ⟨sample_tree_valid, ⟨next, moved, ?_, below, above⟩, ?_⟩
  · exact ((subtree_moved sample_tree_valid "b" "a" "children" none).2 next moved).2
  · intro may
    obtain ⟨into, accepted⟩ := (subtree_moved sample_tree_valid "b" "c" "children" none).1.2 may
    have refused : (sampleTree.move "b" "c" "children" none).toBool = false := by decide +kernel
    rw [accepted] at refused
    cases refused

end PageBuilder.Document
