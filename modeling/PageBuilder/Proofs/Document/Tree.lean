import PageBuilder.Document.Basic
import PageBuilder.Proofs.SortedMap
import Mathlib.Data.List.Nodup
import Mathlib.Data.List.Perm.Subperm

/-!
The tree that the parents of nodes span, told by identifiers: which node lies how far below which.
What a document lists as children, as below a node and as above it is read off that relation.
-/

namespace PageBuilder.Document

def parentId? (document : Document) (id : NodeId) : Option NodeId :=
  (document.get? id).bind Node.parent?

theorem present_of_parent {document : Document} {id parent : NodeId}
    (step : document.parentId? id = some parent) : ∃ node, document.get? id = some node := by
  obtain ⟨node, here, _⟩ := Option.bind_eq_some_iff.1 step
  exact ⟨node, here⟩

/-- A node lies some levels below an upper one: as many steps lead up to it. -/
inductive Under (document : Document) (upper : NodeId) : Nat → NodeId → Prop
  | self : Under document upper 0 upper
  | up {distance : Nat} {lower parent : NodeId} (step : document.parentId? lower = some parent)
      (above : Under document upper distance parent) : Under document upper (distance + 1) lower

namespace Under

variable {document : Document} {upper middle lower : NodeId} {distance further : Nat}

theorem eq_of_zero (under : Under document upper 0 lower) : lower = upper := by
  cases under
  rfl

theorem trans (first : Under document middle distance lower)
    (second : Under document upper further middle) :
    Under document upper (further + distance) lower := by
  induction first with
  | self => exact second
  | up step _ ih => exact up step ih

theorem single (step : document.parentId? lower = some upper) : Under document upper 1 lower :=
  up step self

/-- From the lower end: the first step leads to the parent. -/
theorem of_succ (under : Under document upper (distance + 1) lower) :
    ∃ parent, document.parentId? lower = some parent ∧ Under document upper distance parent := by
  cases under with
  | up step above => exact ⟨_, step, above⟩

/-- From the upper end: the last step comes from a child. -/
theorem succ_iff : Under document upper (distance + 1) lower ↔
    ∃ child, document.parentId? child = some upper ∧ Under document child distance lower := by
  constructor
  · intro under
    induction distance generalizing lower with
    | zero =>
        obtain ⟨parent, step, above⟩ := under.of_succ
        rw [above.eq_of_zero] at step
        exact ⟨lower, step, self⟩
    | succ distance ih =>
        obtain ⟨parent, step, above⟩ := under.of_succ
        obtain ⟨child, top, rest⟩ := ih above
        exact ⟨child, top, up step rest⟩
  · intro held
    obtain ⟨child, top, rest⟩ := held
    rw [Nat.add_comm]
    exact rest.trans (single top)

/-- There is one way up, so of two nodes above a third one the farther is above the nearer. -/
theorem of_longer (near : Under document middle distance lower)
    (far : Under document upper (distance + further) lower) :
    Under document upper further middle := by
  induction near with
  | self => rwa [Nat.zero_add] at far
  | @up distance lower parent step _ ih =>
      rw [Nat.add_right_comm] at far
      obtain ⟨other, again, above⟩ := far.of_succ
      rw [step] at again
      cases again
      exact ih above

theorem present (under : Under document upper distance lower)
    (found : ∃ node, document.get? upper = some node) :
    ∃ node, document.get? lower = some node := by
  cases under with
  | self => exact found
  | up step _ => exact present_of_parent step

theorem present_upper (under : Under document upper distance lower)
    (found : ∃ node, document.get? lower = some node)
    (parents : ∀ {id parent : NodeId}, document.parentId? id = some parent →
      ∃ node, document.get? parent = some node) : ∃ node, document.get? upper = some node := by
  induction under with
  | self => exact found
  | up step _ ih => exact ih (parents step)

end Under

def Stored (document : Document) : Prop :=
  ∀ {id : NodeId} {node : Node}, document.get? id = some node → node.id = id

/-- The root has no parent, and every node lies somewhere below it. -/
structure Rooted (document : Document) : Prop where
  present : ∃ node, document.get? document.root = some node
  top : document.parentId? document.root = none
  reaches : ∀ {id : NodeId} {node : Node}, document.get? id = some node →
    ∃ distance, Under document document.root distance id

variable {document : Document}

theorem parent_id_of_get {id : NodeId} {node : Node} (found : document.get? id = some node) :
    document.parentId? id = node.parent? := by
  rw [parentId?, found, Option.bind_some]

theorem eq_of_same_id {left right : Node} (first : document.get? left.id = some left)
    (second : document.get? right.id = some right) (same : left.id = right.id) : left = right := by
  rw [same, second] at first
  exact (Option.some.inj first).symm

theorem mem_all_nodes {node : Node} :
    node ∈ document.allNodes ↔ ∃ id, document.get? id = some node :=
  document.nodes.mem_values_iff

theorem mem_all_nodes_iff (stored : document.Stored) {node : Node} :
    node ∈ document.allNodes ↔ document.get? node.id = some node := by
  rw [mem_all_nodes]
  constructor
  · intro held
    obtain ⟨id, found⟩ := held
    rwa [stored found]
  · intro found
    exact ⟨node.id, found⟩

namespace Rooted

theorem root_distance (rooted : document.Rooted) {distance : Nat}
    (under : Under document document.root distance document.root) : distance = 0 := by
  cases under with
  | self => rfl
  | up step _ => exact absurd (rooted.top.symm.trans step) (by simp)

/-- How far below the root a node lies does not depend on the way. -/
theorem distance_unique (rooted : document.Rooted) {left right : Nat} {id : NodeId}
    (first : Under document document.root left id)
    (second : Under document document.root right id) : left = right := by
  rcases Nat.le_total left right with less | more
  · obtain ⟨rest, rfl⟩ := Nat.exists_eq_add_of_le less
    have zero := rooted.root_distance (first.of_longer second)
    omega
  · obtain ⟨rest, rfl⟩ := Nat.exists_eq_add_of_le more
    have zero := rooted.root_distance (second.of_longer first)
    omega

/-- The way up passes distinct nodes, one on every level. -/
theorem exists_path (rooted : document.Rooted) {distance : Nat} {id : NodeId}
    (under : Under document document.root distance id) :
    ∃ path : List NodeId, path.length = distance + 1 ∧ path.Nodup ∧
      ∀ passed ∈ path, (∃ node, document.get? passed = some node) ∧
        ∃ level ≤ distance, Under document document.root level passed := by
  induction under with
  | self =>
      refine ⟨[document.root], rfl, List.nodup_singleton _, ?_⟩
      intro passed member
      rw [List.mem_singleton.1 member]
      exact ⟨rooted.present, 0, Nat.le_refl 0, .self⟩
  | @up distance lower parent step above ih =>
      obtain ⟨path, length, distinct, inside⟩ := ih
      have here : Under document document.root (distance + 1) lower := .up step above
      refine ⟨lower :: path, by rw [List.length_cons, length], ?_, ?_⟩
      · refine List.nodup_cons.2 ⟨?_, distinct⟩
        intro again
        obtain ⟨level, bound, under⟩ := (inside lower again).2
        have same := rooted.distance_unique here under
        omega
      · intro passed member
        rcases List.mem_cons.1 member with rfl | later
        · exact ⟨here.present rooted.present, distance + 1, Nat.le_refl _, here⟩
        · obtain ⟨found, level, bound, under⟩ := inside passed later
          exact ⟨found, level, by omega, under⟩

theorem distance_lt_size (rooted : document.Rooted) {distance : Nat} {id : NodeId}
    (under : Under document document.root distance id) : distance < document.size := by
  obtain ⟨path, length, distinct, inside⟩ := rooted.exists_path under
  have subset : path ⊆ document.nodes.keys := by
    intro passed member
    exact document.nodes.mem_keys_iff.2 (inside passed member).1
  have bound : path.length ≤ document.nodes.keys.length := (distinct.subperm subset).length_le
  rw [length, SortedMap.keys, List.length_map] at bound
  exact bound

theorem under_lt_size (rooted : document.Rooted) {upper lower : NodeId} {distance : Nat}
    (under : Under document upper distance lower)
    (found : ∃ node, document.get? upper = some node) : distance < document.size := by
  obtain ⟨node, here⟩ := found
  obtain ⟨height, top⟩ := rooted.reaches here
  have whole := rooted.distance_lt_size (under.trans top)
  omega

theorem not_under_self (rooted : document.Rooted) {id : NodeId} {distance : Nat}
    (found : ∃ node, document.get? id = some node) :
    ¬Under document id (distance + 1) id := by
  intro under
  obtain ⟨node, here⟩ := found
  obtain ⟨height, top⟩ := rooted.reaches here
  have same := rooted.distance_unique top (under.trans top)
  omega

end Rooted

theorem stands_in_iff {parent : NodeId} {slot : String} {node : Node} :
    standsIn parent slot node = true ↔
      ∃ placement, node.placement = some placement ∧ placement.parent = parent ∧
        placement.slot = slot := by
  rw [standsIn]
  split
  · rename_i placement here
    simp [here]
  · rename_i here
    simp [here]

theorem mem_children_in {parent : NodeId} {slot : String} {node : Node} :
    node ∈ document.childrenIn parent slot ↔
      node ∈ document.allNodes ∧ standsIn parent slot node = true := by
  rw [childrenIn, List.mem_mergeSort, List.mem_filter]

theorem slot_under_iff {parent : NodeId} {node : Node} {slot : String} :
    slotUnder? parent node = some slot ↔ standsIn parent slot node = true := by
  rw [slotUnder?, stands_in_iff, Option.bind_eq_some_iff]
  constructor
  · intro held
    obtain ⟨placement, here, taken⟩ := held
    split at taken
    · rename_i same
      exact ⟨placement, here, same, Option.some.inj taken⟩
    · cases taken
  · intro held
    obtain ⟨placement, here, same, rfl⟩ := held
    exact ⟨placement, here, if_pos same⟩

theorem mem_slots_of {parent : NodeId} {slot : String} :
    slot ∈ document.slotsOf parent ↔
      ∃ node ∈ document.allNodes, standsIn parent slot node = true := by
  rw [slotsOf, SortedMap.mem_keys_of_list]
  constructor
  · intro held
    obtain ⟨value, member⟩ := held
    obtain ⟨name, found, same⟩ := List.mem_map.1 member
    obtain ⟨node, inside, here⟩ := List.mem_filterMap.1 found
    cases same
    exact ⟨node, inside, slot_under_iff.1 here⟩
  · intro held
    obtain ⟨node, inside, here⟩ := held
    refine ⟨(), List.mem_map.2 ⟨slot, ?_, rfl⟩⟩
    exact List.mem_filterMap.2 ⟨node, inside, slot_under_iff.2 here⟩

theorem mem_children {parent : NodeId} {node : Node} :
    node ∈ document.children parent ↔
      node ∈ document.allNodes ∧ node.parent? = some parent := by
  have placed : node.parent? = some parent ↔ ∃ slot, standsIn parent slot node = true := by
    simp only [stands_in_iff, Node.parent?, Option.map_eq_some_iff]
    constructor
    · intro held
      obtain ⟨placement, here, same⟩ := held
      exact ⟨placement.slot, placement, here, same, rfl⟩
    · intro held
      obtain ⟨slot, placement, here, same, _⟩ := held
      exact ⟨placement, here, same⟩
  rw [children, childSlots, List.mem_flatMap, placed]
  constructor
  · intro held
    obtain ⟨entry, member, inside⟩ := held
    obtain ⟨slot, _, rfl⟩ := List.mem_map.1 member
    obtain ⟨node, stands⟩ := mem_children_in.1 inside
    exact ⟨node, slot, stands⟩
  · intro held
    obtain ⟨inside, slot, stands⟩ := held
    refine ⟨(slot, document.childrenIn parent slot), ?_, mem_children_in.2 ⟨inside, stands⟩⟩
    exact List.mem_map.2 ⟨slot, mem_slots_of.2 ⟨node, inside, stands⟩, rfl⟩

theorem mem_children_iff (stored : document.Stored) {parent : NodeId} {node : Node} :
    node ∈ document.children parent ↔
      document.get? node.id = some node ∧ document.parentId? node.id = some parent := by
  rw [mem_children, mem_all_nodes_iff stored]
  constructor
  · intro held
    obtain ⟨found, parent⟩ := held
    exact ⟨found, by rw [parent_id_of_get found, parent]⟩
  · intro held
    obtain ⟨found, step⟩ := held
    exact ⟨found, by rw [← parent_id_of_get found, step]⟩

theorem mem_below_iff (stored : document.Stored) {depth : Nat} {upper : NodeId} {node : Node} :
    node ∈ document.below depth upper ↔ document.get? node.id = some node ∧
      ∃ distance < depth, Under document upper (distance + 1) node.id := by
  induction depth generalizing upper with
  | zero => simp [below]
  | succ depth ih =>
      rw [below, List.mem_flatMap]
      constructor
      · intro held
        obtain ⟨child, inside, member⟩ := held
        obtain ⟨present, step⟩ := (mem_children_iff stored).1 inside
        rcases List.mem_cons.1 member with rfl | later
        · exact ⟨present, 0, Nat.succ_pos depth, .single step⟩
        · obtain ⟨found, distance, bound, under⟩ := ih.1 later
          exact ⟨found, distance + 1, by omega, Under.succ_iff.2 ⟨child.id, step, under⟩⟩
      · intro held
        obtain ⟨found, distance, bound, under⟩ := held
        obtain ⟨id, step, rest⟩ := Under.succ_iff.1 under
        obtain ⟨child, present⟩ := present_of_parent step
        have own : child.id = id := stored present
        subst own
        refine ⟨child, (mem_children_iff stored).2 ⟨present, step⟩, ?_⟩
        cases distance with
        | zero =>
            have same : node.id = child.id := rest.eq_of_zero
            rw [same, present] at found
            exact List.mem_cons.2 (Or.inl (Option.some.inj found).symm)
        | succ distance =>
            exact List.mem_cons_of_mem _ (ih.2 ⟨found, distance, by omega, rest⟩)

theorem mem_descendants_iff (stored : document.Stored) (rooted : document.Rooted) {upper : NodeId}
    (found : ∃ node, document.get? upper = some node) {node : Node} :
    node ∈ document.descendants upper ↔ document.get? node.id = some node ∧
      ∃ distance, Under document upper (distance + 1) node.id := by
  rw [descendants, mem_below_iff stored]
  constructor
  · intro held
    obtain ⟨present, distance, _, under⟩ := held
    exact ⟨present, distance, under⟩
  · intro held
    obtain ⟨present, distance, under⟩ := held
    have bound := rooted.under_lt_size under found
    exact ⟨present, distance, by omega, under⟩

theorem parent_of_eq_some_iff {node parent : Node} (stored : document.Stored)
    (found : document.get? node.id = some node) :
    document.parentOf? node = some parent ↔ document.parentId? node.id = some parent.id ∧
      document.get? parent.id = some parent := by
  rw [parentOf?, Option.bind_eq_some_iff, parent_id_of_get found]
  constructor
  · intro held
    obtain ⟨id, step, present⟩ := held
    have own : parent.id = id := stored present
    subst own
    exact ⟨step, present⟩
  · intro held
    obtain ⟨step, present⟩ := held
    exact ⟨parent.id, step, present⟩

/-- Every way further up passes the parent. -/
theorem under_succ_iff (stored : document.Stored) {node parent : Node}
    (found : document.get? node.id = some node) (here : document.parentOf? node = some parent)
    {upper : NodeId} {distance : Nat} :
    Under document upper (distance + 1) node.id ↔ Under document upper distance parent.id := by
  have step := ((parent_of_eq_some_iff stored found).1 here).1
  constructor
  · intro under
    obtain ⟨next, again, rest⟩ := under.of_succ
    cases step.symm.trans again
    exact rest
  · exact .up step

theorem not_under_succ (stored : document.Stored) {node : Node}
    (found : document.get? node.id = some node) (unplaced : document.parentOf? node = none)
    {upper : NodeId} (present : ∃ other, document.get? upper = some other) (distance : Nat) :
    ¬Under document upper (distance + 1) node.id := by
  intro under
  obtain ⟨parent, step, rest⟩ := under.of_succ
  obtain ⟨next, known⟩ := rest.present present
  have own : next.id = parent := stored known
  subst own
  cases unplaced.symm.trans ((parent_of_eq_some_iff stored found).2 ⟨step, known⟩)

theorem mem_above_iff (stored : document.Stored) {height : Nat} {node upper : Node}
    (found : document.get? node.id = some node) :
    upper ∈ document.above height node ↔ document.get? upper.id = some upper ∧
      ∃ distance < height, Under document upper.id (distance + 1) node.id := by
  induction height generalizing node with
  | zero => simp [above]
  | succ height ih =>
      rw [above]
      split
      · rename_i parent here
        have present := ((parent_of_eq_some_iff stored found).1 here).2
        rw [List.mem_cons, ih present]
        simp only [under_succ_iff stored found here]
        constructor
        · intro held
          rcases held with rfl | ⟨known, distance, bound, under⟩
          · exact ⟨present, 0, Nat.succ_pos height, .self⟩
          · exact ⟨known, distance + 1, by omega, under⟩
        · intro held
          obtain ⟨known, distance, bound, under⟩ := held
          cases distance with
          | zero =>
              rw [under.eq_of_zero, known] at present
              exact Or.inl (Option.some.inj present)
          | succ distance => exact Or.inr ⟨known, distance, by omega, under⟩
      · rename_i unplaced
        constructor
        · intro member
          exact absurd member List.not_mem_nil
        · intro held
          obtain ⟨known, distance, _, under⟩ := held
          exact absurd under (not_under_succ stored found unplaced ⟨upper, known⟩ distance)

theorem mem_ancestors_iff (stored : document.Stored) (rooted : document.Rooted) {id : NodeId}
    {node upper : Node} (found : document.get? id = some node) :
    upper ∈ document.ancestors id ↔ document.get? upper.id = some upper ∧
      ∃ distance, Under document upper.id (distance + 1) id := by
  have own : node.id = id := stored found
  subst own
  simp only [ancestors, found]
  rw [List.mem_reverse, mem_above_iff stored found]
  constructor
  · intro held
    obtain ⟨known, distance, _, under⟩ := held
    exact ⟨known, distance, under⟩
  · intro held
    obtain ⟨known, distance, under⟩ := held
    have bound := rooted.under_lt_size under ⟨upper, known⟩
    exact ⟨known, distance, by omega, under⟩

end PageBuilder.Document
