import PageBuilder.Proofs.Document.Slots
import Mathlib.Data.List.Chain

/-!
What a document lists below a node and above one. The walk down passes children and has no bound of
its own, the walk up follows parents; what is met on the one is what leads back on the other.
-/

namespace PageBuilder

theorem nodup_of_parts {Item Part : Type} {items : List Item} {parts : Item → List Part}
    (once : items.Nodup) (each : ∀ item ∈ items, (parts item).Nodup)
    (apart : ∀ left ∈ items, ∀ right ∈ items, ∀ part ∈ parts left, part ∈ parts right →
      left = right) : (items.flatMap parts).Nodup := by
  apply List.nodup_flatMap.2
  refine ⟨each, once.imp_of_mem ?_⟩
  intro left right first second differ part here there
  exact differ (apart left first right second part here there)

namespace Document

/-- The walk down past some siblings, each before all that lies below it. Where it goes on for ever,
nothing is listed. -/
inductive Descends (document : Document) : List Node → List Node → Prop
  | done : Descends document [] []
  | node {top : Node} {siblings below rest : List Node}
      (down : Descends document (document.children top.id) below)
      (on : Descends document siblings rest) :
      Descends document (top :: siblings) (top :: (below ++ rest))

/-- Where both stand in one slot, the first has the smaller index. -/
def InSlotOrder (left right : Node) : Prop :=
  ∀ first second, left.placement = some first → right.placement = some second →
    first.parent = second.parent → first.slot = second.slot → first.index < second.index

/-- What is listed below a node, in the order of the walk. -/
structure ListedBelow (document : Document) (upper : NodeId) (nodes : List Node) : Prop where
  walk : ∀ others, Descends document (document.children upper) others ↔ others = nodes
  once : nodes.Nodup
  members : ∀ node, node ∈ nodes ↔ node ∈ document.allNodes ∧ node.id ≠ upper ∧
    ∃ ancestor ∈ document.ancestors node.id, ancestor.id = upper
  parentsFirst : ∀ before node after, nodes = before ++ node :: after →
    node.parent? = some upper ∨ ∃ parent ∈ before, node.parent? = some parent.id
  ordered : nodes.Pairwise InSlotOrder

/-- The way from the root down to a node, which it does not hold itself. -/
structure LeadsTo (document : Document) (node : Node) (nodes : List Node) : Prop where
  first : nodes.head? = document.get? document.root
  steps : nodes.IsChain fun parent child => document.parentOf? child = some parent
  last : nodes.getLast? = document.parentOf? node
  placed : ∃ parent, document.parentOf? node = some parent

variable {document : Document}

/-- No way down from the nodes is as long as the depth. -/
def Shallow (document : Document) (depth : Nat) (nodes : List Node) : Prop :=
  ∀ node ∈ nodes, ∀ {distance : Nat} {lower : NodeId},
    Under document node.id distance lower → distance < depth

theorem Shallow.eq_nil {nodes : List Node} (shallow : document.Shallow 0 nodes) : nodes = [] := by
  rw [List.eq_nil_iff_forall_not_mem]
  intro node member
  exact absurd (shallow node member .self) (Nat.not_lt_zero 0)

theorem Shallow.children (stored : document.Stored) {depth : Nat} {nodes : List Node}
    (shallow : document.Shallow (depth + 1) nodes) {node : Node} (member : node ∈ nodes) :
    document.Shallow depth (document.children node.id) := by
  intro child listed distance lower under
  have step := ((mem_children_iff stored).1 listed).2
  exact Nat.lt_of_succ_lt_succ (shallow node member (Under.succ_iff.2 ⟨child.id, step, under⟩))

theorem Shallow.subset {depth : Nat} {nodes fewer : List Node}
    (shallow : document.Shallow depth nodes) (inside : fewer ⊆ nodes) :
    document.Shallow depth fewer := fun node member _ _ under => shallow node (inside member) under

theorem shallow_size (rooted : document.Rooted) {nodes : List Node}
    (present : ∀ node ∈ nodes, document.get? node.id = some node) :
    document.Shallow document.size nodes := by
  intro node member distance lower under
  exact rooted.under_lt_size under ⟨node, present node member⟩

theorem children_in_subset (document : Document) (parent : NodeId) (slot : String) :
    document.childrenIn parent slot ⊆ document.children parent := by
  intro node member
  obtain ⟨listed, stands⟩ := mem_children_in.1 member
  obtain ⟨placement, placed, rfl, _⟩ := stands_in_iff.1 stands
  refine mem_children.2 ⟨listed, ?_⟩
  rw [Node.parent?, placed, Option.map_some]

theorem children_subset (document : Document) (parent : NodeId) :
    document.children parent ⊆ document.allNodes := fun _ member => (mem_children.1 member).1

theorem children_nodup (stored : document.Stored) (parent : NodeId) :
    (document.children parent).Nodup := by
  rw [children, childSlots, List.flatMap_map]
  apply nodup_of_parts
  · exact SortedMap.keys_nodup _
  · exact fun slot _ => children_in_nodup stored parent slot
  · intro left _ right _ node first second
    obtain ⟨placement, placed, _, rfl⟩ := stands_in_iff.1 (mem_children_in.1 first).2
    obtain ⟨other, again, _, rfl⟩ := stands_in_iff.1 (mem_children_in.1 second).2
    rw [placed] at again
    cases again
    rfl

theorem children_in_slot_order (wellFormed : document.WellFormed) (parent : NodeId) :
    (document.children parent).Pairwise InSlotOrder := by
  rw [children, childSlots, List.flatMap_map, List.pairwise_flatMap]
  constructor
  · intro slot _
    refine (children_in_ahead wellFormed parent slot).imp ?_
    intro left right ahead first second placed other _ _
    rw [Ahead, index_of_placed placed, index_of_placed other] at ahead
    exact ahead
  · refine (SortedMap.keys_nodup _).imp ?_
    intro one another differ left leftMember right rightMember first second placed other _ same
    obtain ⟨placement, stands, _, rfl⟩ := stands_in_iff.1 (mem_children_in.1 leftMember).2
    obtain ⟨place, there, _, rfl⟩ := stands_in_iff.1 (mem_children_in.1 rightMember).2
    cases placed.symm.trans stands
    cases other.symm.trans there
    exact absurd same differ

theorem InSlotOrder.of_parents {left right : Node} {one another : NodeId}
    (placed : left.parent? = some one) (other : right.parent? = some another)
    (differ : one ≠ another) : InSlotOrder left right := by
  intro here there stands standsToo same _
  rw [Node.parent?, stands, Option.map_some, Option.some.injEq] at placed
  rw [Node.parent?, standsToo, Option.map_some, Option.some.injEq] at other
  exact absurd (placed.symm.trans (same.trans other)) differ

/-- Siblings have nothing below them in common. -/
theorem Rooted.eq_of_siblings (rooted : document.Rooted) {upper left right lower : NodeId}
    {near far : Nat} (found : ∃ node, document.get? upper = some node)
    (first : document.parentId? left = some upper) (second : document.parentId? right = some upper)
    (under : Under document left near lower) (other : Under document right far lower) :
    left = right := by
  -- The farther of the two would lie above the nearer, and so the parent of both above itself.
  have not_longer {left right : NodeId} {near more : Nat}
      (first : document.parentId? left = some upper)
      (second : document.parentId? right = some upper) (under : Under document left near lower)
      (other : Under document right (near + more) lower) : left = right := by
    have above := under.of_longer other
    cases more with
    | zero => exact above.eq_of_zero
    | succ more =>
        obtain ⟨parent, step, rest⟩ := above.of_succ
        rw [first] at step
        cases step
        have around := rest.trans (.single second)
        rw [Nat.add_comm] at around
        exact absurd around (rooted.not_under_self found)
  rcases Nat.le_total near far with le | le
  · obtain ⟨more, rfl⟩ := Nat.exists_eq_add_of_le le
    exact not_longer first second under other
  · obtain ⟨more, rfl⟩ := Nat.exists_eq_add_of_le le
    exact (not_longer second first other under).symm

theorem WellFormed.not_under_child (wellFormed : document.WellFormed) {upper child : NodeId}
    (step : document.parentId? child = some upper) (distance : Nat) :
    ¬Under document child distance upper := by
  intro under
  have around := under.trans (.single step)
  rw [Nat.add_comm] at around
  exact wellFormed.rooted.not_under_self (wellFormed.parent_present step) around

namespace Descends

variable {siblings nodes : List Node}

theorem unique {others : List Node} (walk : Descends document siblings nodes)
    (again : Descends document siblings others) : others = nodes := by
  induction walk generalizing others with
  | done =>
      cases again
      rfl
  | node _ _ down on =>
      cases again with
      | node otherDown otherOn => rw [down otherDown, on otherOn]

/-- Walks below each of some siblings make a walk past all of them. -/
theorem flat_map {below : Node → List Node}
    (each : ∀ top ∈ siblings, Descends document (document.children top.id) (below top)) :
    Descends document siblings (siblings.flatMap fun top => top :: below top) := by
  induction siblings with
  | nil => exact .done
  | cons top siblings ih =>
      exact .node (each top List.mem_cons_self)
        (ih fun other member => each other (List.mem_cons_of_mem _ member))

theorem stands_below (stored : document.Stored) {top node : Node}
    (held : node ∈ document.children top.id ∨ ∃ child ∈ document.children top.id,
      ∃ parent distance, node.parent? = some parent ∧ Under document child.id distance parent) :
    ∃ parent distance, node.parent? = some parent ∧ Under document top.id distance parent := by
  rcases held with child | ⟨child, member, parent, distance, placed, under⟩
  · exact ⟨top.id, 0, (mem_children.1 child).2, .self⟩
  · have step := ((mem_children_iff stored).1 member).2
    exact ⟨parent, distance + 1, placed, Under.succ_iff.2 ⟨child.id, step, under⟩⟩

/-- Every node that is met is one of the siblings, or stands in one of them or below one. -/
theorem origin (stored : document.Stored) (walk : Descends document siblings nodes) {node : Node}
    (met : node ∈ nodes) : node ∈ siblings ∨ ∃ top ∈ siblings, ∃ parent distance,
      node.parent? = some parent ∧ Under document top.id distance parent := by
  induction walk with
  | done => exact absurd met List.not_mem_nil
  | @node top siblings below rest _ _ down on =>
      rcases List.mem_cons.1 met with rfl | further
      · exact .inl List.mem_cons_self
      rcases List.mem_append.1 further with lower | later
      · exact .inr ⟨top, List.mem_cons_self, stands_below stored (down lower)⟩
      · rcases on later with sibling | ⟨other, member, held⟩
        · exact .inl (List.mem_cons_of_mem _ sibling)
        · exact .inr ⟨other, List.mem_cons_of_mem _ member, held⟩

theorem present (walk : Descends document siblings nodes) (listed : siblings ⊆ document.allNodes) :
    nodes ⊆ document.allNodes := by
  induction walk with
  | done => exact listed
  | node _ _ down on =>
      rw [List.cons_subset] at listed
      exact List.cons_subset.2 ⟨listed.1, List.append_subset.2
        ⟨down (children_subset document _), on listed.2⟩⟩

theorem under (stored : document.Stored) (walk : Descends document siblings nodes)
    (listed : siblings ⊆ document.allNodes) {node : Node} (met : node ∈ nodes) :
    ∃ top ∈ siblings, ∃ distance, Under document top.id distance node.id := by
  rcases walk.origin stored met with sibling | ⟨top, member, parent, distance, placed, under⟩
  · exact ⟨node, sibling, 0, .self⟩
  · have found := (mem_all_nodes_iff stored).1 (walk.present listed met)
    exact ⟨top, member, distance + 1, .up ((parent_id_of_get found).trans placed) under⟩

theorem parent_before (walk : Descends document siblings nodes) {before after : List Node}
    {node : Node} (split : nodes = before ++ node :: after) :
    node ∈ siblings ∨ ∃ parent ∈ before, node.parent? = some parent.id := by
  induction walk generalizing before after with
  | done => simp at split
  | @node top siblings below rest _ _ down on =>
      cases before with
      | nil =>
          cases split
          exact .inl List.mem_cons_self
      | cons first before =>
          obtain ⟨rfl, tails⟩ := List.cons.inj split
          -- The node stands past what is met below the top, right behind that, or in it.
          rcases List.append_eq_append_iff.1 tails with ⟨more, same, later⟩ | ⟨more, same, later⟩
          · subst same
            rcases on later with sibling | ⟨parent, member, placed⟩
            · exact .inl (List.mem_cons_of_mem _ sibling)
            · exact .inr ⟨parent, by simp [member], placed⟩
          · cases more with
            | nil =>
                rcases @on [] after later.symm with sibling | ⟨parent, member, _⟩
                · exact .inl (List.mem_cons_of_mem _ sibling)
                · exact absurd member List.not_mem_nil
            | cons next more =>
                obtain ⟨rfl, _⟩ := List.cons.inj later
                rcases down same with child | ⟨parent, member, placed⟩
                · exact .inr ⟨top, List.mem_cons_self, (mem_children.1 child).2⟩
                · exact .inr ⟨parent, List.mem_cons_of_mem _ member, placed⟩

/-- Below two of some siblings nothing is the same. -/
theorem apart_of_siblings (wellFormed : document.WellFormed) {upper : NodeId} {top other : Node}
    (inside : top :: siblings ⊆ document.children upper) (once : (top :: siblings).Nodup)
    (member : other ∈ siblings) {lower : NodeId} {near far : Nat}
    (here : Under document top.id near lower) (there : Under document other.id far lower) :
    False := by
  have first := (mem_children_iff wellFormed.stored).1 (inside List.mem_cons_self)
  have second :=
    (mem_children_iff wellFormed.stored).1 (inside (List.mem_cons_of_mem _ member))
  have same := wellFormed.rooted.eq_of_siblings (wellFormed.parent_present first.2)
    first.2 second.2 here there
  rw [eq_of_same_id first.1 second.1 same] at once
  exact (List.nodup_cons.1 once).1 member

theorem nodup (wellFormed : document.WellFormed) (walk : Descends document siblings nodes)
    {upper : NodeId} (inside : siblings ⊆ document.children upper) (once : siblings.Nodup) :
    nodes.Nodup := by
  have stored : document.Stored := wellFormed.stored
  induction walk generalizing upper with
  | done => exact List.nodup_nil
  | @node top siblings below rest goesDown goesOn down on =>
      obtain ⟨member, others⟩ := List.cons_subset.1 inside
      have present := List.Subset.trans others (children_subset document upper)
      have lower {node : Node} (met : node ∈ below) :
          ∃ distance, Under document top.id (distance + 1) node.id := by
        obtain ⟨parent, distance, placed, under⟩ :=
          stands_below stored (goesDown.origin stored met)
        have found :=
          (mem_all_nodes_iff stored).1 (goesDown.present (children_subset document top.id) met)
        exact ⟨distance, .up ((parent_id_of_get found).trans placed) under⟩
      have later {node : Node} (met : node ∈ rest) {distance : Nat} :
          ¬Under document top.id distance node.id := by
        obtain ⟨other, listed, far, under⟩ := goesOn.under stored present met
        exact fun here => apart_of_siblings wellFormed inside once listed here under
      rw [List.nodup_cons, List.nodup_append, List.mem_append, not_or]
      refine ⟨⟨?_, fun again => later again .self⟩,
        down (List.Subset.refl _) (children_nodup stored top.id),
        on others (List.nodup_cons.1 once).2, ?_⟩
      · intro again
        obtain ⟨distance, under⟩ := lower again
        have found := ((mem_children_iff stored).1 member).1
        exact wellFormed.rooted.not_under_self ⟨top, found⟩ under
      · rintro node met other again rfl
        obtain ⟨distance, under⟩ := lower met
        exact later again under

theorem in_slot_order (wellFormed : document.WellFormed) (walk : Descends document siblings nodes)
    {upper : NodeId} (inside : siblings ⊆ document.children upper) (once : siblings.Nodup)
    (sorted : siblings.Pairwise InSlotOrder) : nodes.Pairwise InSlotOrder := by
  have stored : document.Stored := wellFormed.stored
  induction walk generalizing upper with
  | done => exact .nil
  | @node top siblings below rest goesDown goesOn down on =>
      obtain ⟨member, others⟩ := List.cons_subset.1 inside
      obtain ⟨first, remaining⟩ := List.pairwise_cons.1 sorted
      have step := ((mem_children_iff stored).1 member).2
      have own : top.parent? = some upper := (mem_children.1 member).2
      have lower {node : Node} (met : node ∈ below) :=
        stands_below stored (goesDown.origin stored met)
      -- All but siblings stand in different parents, by what a parent cannot be below.
      rw [List.pairwise_cons, List.pairwise_append]
      refine ⟨?_, down (List.Subset.refl _) (children_nodup stored top.id)
        (children_in_slot_order wellFormed top.id), on others (List.nodup_cons.1 once).2 remaining,
        ?_⟩
      · intro node met
        rcases List.mem_append.1 met with deeper | later
        · obtain ⟨parent, distance, placed, under⟩ := lower deeper
          apply InSlotOrder.of_parents own placed
          rintro rfl
          exact wellFormed.not_under_child step distance under
        · rcases goesOn.origin stored later with sibling | ⟨other, listed, parent, distance, held⟩
          · exact first node sibling
          · apply InSlotOrder.of_parents own held.1
            rintro rfl
            have up := ((mem_children_iff stored).1 (others listed)).2
            exact wellFormed.not_under_child up distance held.2
      · intro node deeper another later
        obtain ⟨parent, distance, placed, under⟩ := lower deeper
        rcases goesOn.origin stored later with sibling | ⟨other, listed, upper, far, held⟩
        · apply InSlotOrder.of_parents placed (mem_children.1 (others sibling)).2
          rintro rfl
          exact wellFormed.not_under_child step distance under
        · apply InSlotOrder.of_parents placed held.1
          rintro rfl
          exact apart_of_siblings wellFormed inside once listed under held.2

end Descends

/-- Depth enough for every way down lets the walk come to its end. -/
theorem descends_below (stored : document.Stored) {depth : Nat} {upper : NodeId}
    (shallow : document.Shallow depth (document.children upper)) :
    Descends document (document.children upper) (document.below depth upper) := by
  induction depth generalizing upper with
  | zero =>
      rw [shallow.eq_nil]
      exact .done
  | succ depth ih =>
      apply Descends.flat_map
      intro top member
      exact ih (shallow.children stored member)

theorem descends_descendants (wellFormed : document.WellFormed) (upper : NodeId) :
    Descends document (document.children upper) (document.descendants upper) := by
  apply descends_below wellFormed.stored
  apply shallow_size wellFormed.rooted
  intro child member
  exact ((mem_children_iff wellFormed.stored).1 member).1

/-- Height enough for the whole way up makes no difference. -/
theorem above_eq (stored : document.Stored) (rooted : document.Rooted) {distance height other : Nat}
    {node : Node} (found : document.get? node.id = some node)
    (under : Under document document.root distance node.id) (enough : distance ≤ height)
    (also : distance ≤ other) : document.above height node = document.above other node := by
  induction distance generalizing height other node with
  | zero =>
      have unplaced : document.parentOf? node = none := by
        rw [Option.eq_none_iff_forall_ne_some]
        intro parent here
        have step := ((parent_of_eq_some_iff stored found).1 here).1
        rw [under.eq_of_zero, rooted.top] at step
        cases step
      have nothing (height : Nat) : document.above height node = [] := by
        cases height with
        | zero => rfl
        | succ height => simp only [above, unplaced]
      rw [nothing, nothing]
  | succ distance ih =>
      obtain ⟨height, rfl⟩ := Nat.exists_eq_add_one_of_ne_zero (Nat.ne_zero_of_lt enough)
      obtain ⟨other, rfl⟩ := Nat.exists_eq_add_one_of_ne_zero (Nat.ne_zero_of_lt also)
      simp only [above]
      cases here : document.parentOf? node with
      | none => rfl
      | some parent =>
          obtain ⟨step, present⟩ := (parent_of_eq_some_iff stored found).1 here
          obtain ⟨next, again, above⟩ := under.of_succ
          cases step.symm.trans again
          exact congrArg (parent :: ·) (ih present above (by omega) (by omega))

theorem ancestors_of_parent (wellFormed : document.WellFormed) {id : NodeId} {node parent : Node}
    (found : document.get? id = some node) (placed : document.parentOf? node = some parent) :
    document.ancestors id = document.ancestors parent.id ++ [parent] := by
  have stored : document.Stored := wellFormed.stored
  have own : node.id = id := stored found
  subst own
  obtain ⟨step, present⟩ := (parent_of_eq_some_iff stored found).1 placed
  obtain ⟨distance, under⟩ := wellFormed.reaches present
  have bound := wellFormed.rooted.distance_lt_size under
  obtain ⟨size, same⟩ := Nat.exists_eq_add_one_of_ne_zero (Nat.ne_zero_of_lt bound)
  have rest : document.above size parent = document.above document.size parent :=
    above_eq stored wellFormed.rooted present under (by omega) (by omega)
  simp only [ancestors, found, present]
  rw [← rest, same, above, placed, List.reverse_cons]

theorem ancestors_of_unplaced {id : NodeId} {node : Node} (found : document.get? id = some node)
    (unplaced : document.parentOf? node = none) : document.ancestors id = [] := by
  simp only [ancestors, found]
  cases document.size with
  | zero => rfl
  | succ size => simp only [above, unplaced, List.reverse_nil]

theorem ancestors_root (wellFormed : document.WellFormed) :
    document.ancestors document.root = [] := by
  obtain ⟨root, found, _, unplaced⟩ := wellFormed.root
  apply ancestors_of_unplaced found
  rw [parentOf?, Node.parent?, unplaced]
  rfl

theorem WellFormed.exists_parent (wellFormed : document.WellFormed) {id : NodeId} {node : Node}
    (found : document.get? id = some node) (other : id ≠ document.root) :
    ∃ parent, document.parentOf? node = some parent := by
  cases placed : node.placement with
  | none => exact absurd (wellFormed.unplaced found placed) other
  | some placement =>
      obtain ⟨parent, present, _⟩ := wellFormed.fits found placed
      refine ⟨parent, ?_⟩
      rw [parentOf?, Node.parent?, placed]
      exact present

theorem ancestors_lead (wellFormed : document.WellFormed) {id : NodeId} {node : Node}
    (found : document.get? id = some node) (other : id ≠ document.root) :
    LeadsTo document node (document.ancestors id) := by
  have stored : document.Stored := wellFormed.stored
  obtain ⟨distance, under⟩ := wellFormed.reaches found
  induction distance generalizing id node with
  | zero => exact absurd under.eq_of_zero other
  | succ distance ih =>
      obtain ⟨parent, placed⟩ := wellFormed.exists_parent found other
      have own : node.id = id := stored found
      subst own
      obtain ⟨step, present⟩ := (parent_of_eq_some_iff stored found).1 placed
      obtain ⟨next, again, above⟩ := under.of_succ
      cases step.symm.trans again
      rw [ancestors_of_parent wellFormed found placed]
      by_cases top : parent.id = document.root
      · rw [top, ancestors_root wellFormed]
        rw [top] at present
        exact ⟨present.symm, .singleton _, placed.symm, ⟨parent, placed⟩⟩
      · have leads := ih present top above
        obtain ⟨upper, stands⟩ := leads.placed
        refine ⟨?_, ?_, ?_, ⟨parent, placed⟩⟩
        · rw [List.head?_append, leads.first]
          obtain ⟨root, atRoot, _⟩ := wellFormed.root
          rw [atRoot, Option.some_or]
        · refine List.isChain_append.2 ⟨leads.steps, .singleton _, ?_⟩
          intro last ending lower first
          cases first
          rw [leads.last] at ending
          exact ending
        · rw [List.getLast?_concat, placed]

theorem mem_descendants_iff_ancestor (wellFormed : document.WellFormed) {upper : NodeId}
    {node : Node} : node ∈ document.descendants upper ↔
      node ∈ document.allNodes ∧ ∃ ancestor ∈ document.ancestors node.id, ancestor.id = upper := by
  have stored : document.Stored := wellFormed.stored
  rw [descendants, mem_below_iff stored, mem_all_nodes_iff stored]
  constructor
  · intro held
    obtain ⟨found, distance, _, under⟩ := held
    obtain ⟨ancestor, present⟩ :=
      under.present_upper ⟨node, found⟩ wellFormed.parent_present
    have own : ancestor.id = upper := stored present
    subst own
    exact ⟨found, ancestor, (mem_ancestors_iff stored wellFormed.rooted found).2
      ⟨present, distance, under⟩, rfl⟩
  · intro held
    obtain ⟨found, ancestor, member, rfl⟩ := held
    obtain ⟨present, distance, under⟩ :=
      (mem_ancestors_iff stored wellFormed.rooted found).1 member
    have bound := wellFormed.rooted.under_lt_size under ⟨ancestor, present⟩
    exact ⟨found, distance, by omega, under⟩

theorem ne_of_ancestor (wellFormed : document.WellFormed) {id : NodeId} {ancestor : Node}
    (member : ancestor ∈ document.ancestors id) : ancestor.id ≠ id := by
  cases found : document.get? id with
  | none =>
      rw [ancestors, found] at member
      exact absurd member List.not_mem_nil
  | some node =>
      obtain ⟨present, distance, under⟩ :=
        (mem_ancestors_iff wellFormed.stored wellFormed.rooted found).1 member
      rintro rfl
      exact wellFormed.rooted.not_under_self ⟨ancestor, present⟩ under

theorem descendants_listed (wellFormed : document.WellFormed) (upper : NodeId) :
    ListedBelow document upper (document.descendants upper) := by
  have walk := descends_descendants wellFormed upper
  have siblings : document.children upper ⊆ document.children upper := List.Subset.refl _
  have once := children_nodup wellFormed.stored upper
  refine ⟨?_, walk.nodup wellFormed siblings once, ?_, ?_,
    walk.in_slot_order wellFormed siblings once (children_in_slot_order wellFormed upper)⟩
  · intro others
    exact ⟨walk.unique, fun same => same ▸ walk⟩
  · intro node
    rw [mem_descendants_iff_ancestor wellFormed]
    constructor
    · intro held
      obtain ⟨listed, ancestor, member, rfl⟩ := held
      exact ⟨listed, (ne_of_ancestor wellFormed member).symm, ancestor, member, rfl⟩
    · intro held
      exact ⟨held.1, held.2.2⟩
  · intro before node after split
    exact (walk.parent_before split).imp (fun child => (mem_children.1 child).2) id

theorem mem_descendants_root (wellFormed : document.WellFormed) {node : Node} :
    node ∈ document.descendants document.root ↔
      node ∈ document.allNodes ∧ node.id ≠ document.root := by
  rw [(descendants_listed wellFormed document.root).members]
  constructor
  · intro held
    exact ⟨held.1, held.2.1⟩
  · intro held
    obtain ⟨listed, other⟩ := held
    have found := (mem_all_nodes_iff wellFormed.stored).1 listed
    obtain ⟨root, atRoot, _⟩ := wellFormed.root
    refine ⟨listed, other, root, ?_, wellFormed.stored atRoot⟩
    apply List.mem_of_mem_head?
    rw [(ancestors_lead wellFormed found other).first, atRoot]
    rfl

/-- What a document lists below a node are the nodes above which it lists that node, each once,
after what it stands in and in the order of its slot; and the nodes above a node lead down to it
from the root, step by step. -/
theorem queries_agree (valid : document.Valid) :
    (∀ upper, ListedBelow document upper (document.descendants upper)) ∧
      (∀ node, node ∈ document.descendants document.root ↔
        node ∈ document.allNodes ∧ node.id ≠ document.root) ∧
      (∀ id node, document.get? id = some node → id ≠ document.root →
        LeadsTo document node (document.ancestors id)) ∧
      document.ancestors document.root = [] := by
  have wellFormed := valid.toWellFormed
  refine ⟨descendants_listed wellFormed, ?_, ?_, ancestors_root wellFormed⟩
  · intro node
    exact mem_descendants_root wellFormed
  · intro id node found other
    exact ancestors_lead wellFormed found other

def sampleTree : Document :=
  twoElements.run [.addNode ⟨"c", "c", none, .empty, .element .empty⟩ "b" "children" none,
    .addNode ⟨"s", "sum", none, .empty, .derivedState .empty⟩ "p" "state" none]

theorem sample_tree_valid : sampleTree.Valid :=
  valid_run (valid_run (valid_run (valid_of_root "r") _) _) _

theorem queries_agree_sample :
    sampleTree.Valid ∧ ListedBelow sampleTree "p" (sampleTree.descendants "p") ∧
      (∃ node, sampleTree.get? "c" = some node ∧
        LeadsTo sampleTree node (sampleTree.ancestors "c")) ∧
      (sampleTree.descendants "b").map Node.id = ["c"] ∧
      (sampleTree.ancestors "c").map Node.id = ["r", "p", "b"] := by
  have agree := queries_agree sample_tree_valid
  have there : (sampleTree.get? "c").isSome = true := by decide +kernel
  obtain ⟨node, found⟩ := Option.isSome_iff_exists.1 there
  refine ⟨sample_tree_valid, agree.1 "p", ⟨node, found, ?_⟩, ?_, ?_⟩
  · exact agree.2.2.1 "c" node found (by decide +kernel)
  · decide +kernel
  · decide +kernel

end Document

end PageBuilder
