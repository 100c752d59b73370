import PageBuilder.Proofs.Document.Run
import Mathlib.Data.List.Sort

/-!
The slots of a document as plain lists of identifiers. Nodes that are put in or moved to a position
come to stand where a list would have them, whatever keys they get for it.
-/

namespace PageBuilder

/-- A list with an item put in at a position, or at the end. -/
def insertedAt (position : Option Nat) (id : NodeId) (ids : List NodeId) : List NodeId :=
  match position with
  | some position => ids.insertIdx (min position ids.length) id
  | none => ids ++ [id]

/-- A list with an item put in at a position, or at the end, and taken out where it stood. -/
def movedTo (position : Option Nat) (id : NodeId) (ids : List NodeId) : List NodeId :=
  match position with
  | some position => (ids.take position).erase id ++ id :: (ids.drop position).erase id
  | none => ids.erase id ++ [id]

abbrev Slots := NodeId → String → List NodeId

inductive SlotEdit where
  | add (node : Node) (parent : NodeId) (slot : String) (position : Option Nat)
  | move (id parent : NodeId) (slot : String) (position : Option Nat)

/-- What an edit means for the lists: a node that moves leaves the slot where it stood. -/
def SlotEdit.onSlots (edit : SlotEdit) (slots : Slots) : Slots := fun parent slot =>
  match edit with
  | .add node target targetSlot position =>
      if parent = target ∧ slot = targetSlot then insertedAt position node.id (slots parent slot)
      else slots parent slot
  | .move id target targetSlot position =>
      if parent = target ∧ slot = targetSlot then movedTo position id (slots parent slot)
      else (slots parent slot).erase id

namespace Document

def slots (document : Document) : Slots := fun parent slot =>
  (document.childrenIn parent slot).map Node.id

def wantedIndex (document : Document) (parent : NodeId) (slot : String) :
    Option Nat → Except EditFault (Option String)
  | some position => (document.indexAt parent slot position).map some
  | none => .ok none

def editSlot (document : Document) : SlotEdit → Except EditFault Document
  | .add node parent slot position => do
      let index ← document.wantedIndex parent slot position
      document.add node parent slot index
  | .move id parent slot position => do
      let index ← document.wantedIndex parent slot position
      document.move id parent slot index

/-- A new node is not placed yet, its identifier is free, and a node of its type may stand where it
is put; a node that moves may stand there as well, and does not move into itself. -/
def Passes (document : Document) : SlotEdit → Prop
  | .add node parent _ _ =>
      node.placement = none ∧ document.get? node.id = none ∧
        ∃ above, document.get? parent = some above ∧ node.type.fitsUnder above.type = true
  | .move id parent _ _ =>
      ∃ node above, document.get? id = some node ∧ document.get? parent = some above ∧
        node.type.fitsUnder above.type = true ∧ id ≠ parent ∧
        ∀ ancestor ∈ document.ancestors parent, ancestor.id ≠ id

inductive SlotRun : Document → List SlotEdit → Document → Prop
  | done {document : Document} : SlotRun document [] document
  | step {document next last : Document} {edit : SlotEdit} {edits : List SlotEdit}
      (passes : document.Passes edit) (edited : document.editSlot edit = .ok next)
      (rest : SlotRun next edits last) : SlotRun document (edit :: edits) last

variable {document : Document} {parent : NodeId} {slot : String}

def Ahead (left right : Node) : Prop := indexOf left < indexOf right

theorem all_nodes_nodup (stored : document.Stored) : document.allNodes.Nodup := by
  rw [allNodes, SortedMap.values, List.Nodup, List.pairwise_map]
  refine document.nodes.sorted.imp_of_mem ?_
  intro first second firstMember secondMember smaller same
  have left : first.2.id = first.1 := stored (document.nodes.mem_entries_iff.1 firstMember)
  have right : second.2.id = second.1 := stored (document.nodes.mem_entries_iff.1 secondMember)
  rw [← left, ← right, same] at smaller
  exact String.lt_irrefl _ smaller

theorem children_in_nodup (stored : document.Stored) (parent : NodeId) (slot : String) :
    (document.childrenIn parent slot).Nodup :=
  (List.mergeSort_perm _ _).nodup_iff.2 ((all_nodes_nodup stored).filter _)

theorem index_of_placed {node : Node} {placement : Placement}
    (placed : node.placement = some placement) : indexOf node = placement.index := by
  rw [indexOf, placed]

/-- Nodes of one slot with one index are the same. -/
theorem eq_of_index (wellFormed : document.WellFormed) {left right : Node}
    (leftMember : left ∈ document.childrenIn parent slot)
    (rightMember : right ∈ document.childrenIn parent slot)
    (same : indexOf left = indexOf right) : left = right := by
  obtain ⟨leftNode, leftStands⟩ := mem_children_in.1 leftMember
  obtain ⟨rightNode, rightStands⟩ := mem_children_in.1 rightMember
  obtain ⟨leftPlace, leftPlaced, leftParent, leftSlot⟩ := stands_in_iff.1 leftStands
  obtain ⟨rightPlace, rightPlaced, rightParent, rightSlot⟩ := stands_in_iff.1 rightStands
  rw [index_of_placed leftPlaced, index_of_placed rightPlaced] at same
  have place : leftPlace = rightPlace := by
    cases leftPlace
    cases rightPlace
    simp_all
  have leftFound := (mem_all_nodes_iff wellFormed.stored).1 leftNode
  have rightFound := (mem_all_nodes_iff wellFormed.stored).1 rightNode
  have ids := wellFormed.apart leftFound rightFound leftPlaced (place ▸ rightPlaced)
  rw [ids, rightFound] at leftFound
  exact (Option.some.inj leftFound).symm

theorem children_in_ahead (wellFormed : document.WellFormed) (parent : NodeId) (slot : String) :
    (document.childrenIn parent slot).Pairwise Ahead := by
  have distinct := children_in_nodup wellFormed.stored parent slot
  refine ((children_in_sorted parent slot).and distinct).imp_of_mem ?_
  intro left right leftMember rightMember held
  rcases comes_before_iff.1 held.1 with less | ⟨same, _⟩
  · exact less
  · exact absurd (eq_of_index wellFormed leftMember rightMember same) held.2

/-- There is one way to list the nodes of a slot in order. -/
theorem children_in_eq (wellFormed : document.WellFormed) {nodes : List Node}
    (sorted : nodes.Pairwise Ahead)
    (members : ∀ node, node ∈ nodes ↔
      node ∈ document.allNodes ∧ standsIn parent slot node = true) :
    document.childrenIn parent slot = nodes := by
  have irreflexive : Std.Irrefl Ahead := ⟨fun node => String.lt_irrefl (indexOf node)⟩
  have antisymmetric : Std.Antisymm Ahead :=
    ⟨fun _ _ less more => absurd more (String.lt_asymm less)⟩
  apply (children_in_ahead wellFormed parent slot).eq_of_mem_iff sorted
  intro node
  rw [mem_children_in, members]

section Put

variable {node : Node} {names : SortedMap NodeId} {key : String}

theorem mem_all_nodes_put (stored : document.Stored) {other : Node} :
    other ∈ (document.put node names).allNodes ↔
      other = node ∨ other.id ≠ node.id ∧ other ∈ document.allNodes := by
  rw [mem_all_nodes]
  constructor
  · intro held
    obtain ⟨id, found⟩ := held
    rcases get_put_cases found with ⟨_, same⟩ | ⟨different, present⟩
    · exact Or.inl same.symm
    · rw [← stored present] at different
      exact Or.inr ⟨different, mem_all_nodes.2 ⟨id, present⟩⟩
  · intro held
    rcases held with rfl | ⟨different, member⟩
    · exact ⟨other.id, by rw [get_put, if_pos rfl]⟩
    · exact ⟨other.id, by rw [get_put, if_neg different, (mem_all_nodes_iff stored).1 member]⟩

def without (id : NodeId) (nodes : List Node) : List Node := nodes.filter fun node => node.id ≠ id

theorem mem_without {id : NodeId} {nodes : List Node} {other : Node} :
    other ∈ without id nodes ↔ other ∈ nodes ∧ other.id ≠ id := by
  rw [without, List.mem_filter, decide_eq_true_eq]

theorem children_put_elsewhere (wellFormed : document.WellFormed)
    (next : (document.put node names).WellFormed) (elsewhere : standsIn parent slot node = false) :
    (document.put node names).childrenIn parent slot =
      without node.id (document.childrenIn parent slot) := by
  apply children_in_eq next
  · exact (children_in_ahead wellFormed parent slot).filter _
  · intro other
    rw [mem_without, mem_children_in, mem_all_nodes_put wellFormed.stored]
    constructor
    · intro held
      exact ⟨Or.inr ⟨held.2, held.1.1⟩, held.1.2⟩
    · intro held
      obtain ⟨rfl | ⟨different, member⟩, stands⟩ := held
      · rw [elsewhere] at stands
        cases stands
      · exact ⟨⟨member, stands⟩, different⟩

/-- Between siblings of smaller and of larger indexes the node finds its place, whether or not it
stood among them. -/
theorem children_put_here (wellFormed : document.WellFormed)
    (next : (document.put node names).WellFormed)
    (placed : node.placement = some ⟨parent, slot, key⟩) {before after : List Node}
    (split : document.childrenIn parent slot = before ++ after)
    (lower : ∀ sibling ∈ before, sibling.id ≠ node.id → indexOf sibling < key)
    (upper : ∀ sibling ∈ after, sibling.id ≠ node.id → key < indexOf sibling) :
    (document.put node names).childrenIn parent slot =
      without node.id before ++ node :: without node.id after := by
  have index : indexOf node = key := index_of_placed placed
  have sorted := children_in_ahead wellFormed parent slot
  rw [split, List.pairwise_append] at sorted
  obtain ⟨beforeSorted, afterSorted, across⟩ := sorted
  -- Children are told by their order and by their members.
  apply children_in_eq next
  · rw [List.pairwise_append, List.pairwise_cons]
    refine ⟨beforeSorted.filter _, ⟨?_, afterSorted.filter _⟩, ?_⟩
    · intro sibling member
      obtain ⟨inside, other⟩ := mem_without.1 member
      rw [Ahead, index]
      exact upper sibling inside other
    · intro left leftMember right rightMember
      obtain ⟨leftInside, leftOther⟩ := mem_without.1 leftMember
      have leftLower := lower left leftInside leftOther
      rcases List.mem_cons.1 rightMember with rfl | rightLater
      · rw [Ahead, index]
        exact leftLower
      · obtain ⟨rightInside, _⟩ := mem_without.1 rightLater
        exact across left leftInside right rightInside
  · intro other
    have listed : other ∈ before ∨ other ∈ after ↔
        other ∈ document.allNodes ∧ standsIn parent slot other = true := by
      rw [← List.mem_append, ← split, mem_children_in]
    have here : standsIn parent slot node = true := stands_in_iff.2 ⟨_, placed, rfl, rfl⟩
    rw [List.mem_append, List.mem_cons, mem_without, mem_without,
      mem_all_nodes_put wellFormed.stored]
    constructor
    · intro held
      rcases held with ⟨inside, different⟩ | rfl | ⟨inside, different⟩
      · obtain ⟨member, stands⟩ := listed.1 (Or.inl inside)
        exact ⟨Or.inr ⟨different, member⟩, stands⟩
      · exact ⟨Or.inl rfl, here⟩
      · obtain ⟨member, stands⟩ := listed.1 (Or.inr inside)
        exact ⟨Or.inr ⟨different, member⟩, stands⟩
    · intro held
      obtain ⟨rfl | ⟨different, member⟩, stands⟩ := held
      · exact Or.inr (Or.inl rfl)
      · rcases listed.2 ⟨member, stands⟩ with inside | inside
        · exact Or.inl ⟨inside, different⟩
        · exact Or.inr (Or.inr ⟨inside, different⟩)

end Put

theorem ids_nodup (stored : document.Stored) (parent : NodeId) (slot : String) :
    (document.slots parent slot).Nodup := by
  refine (List.nodup_map_iff_inj_on (children_in_nodup stored parent slot)).2 ?_
  intro left leftMember right rightMember same
  have leftFound := (mem_all_nodes_iff stored).1 (mem_children_in.1 leftMember).1
  have rightFound := (mem_all_nodes_iff stored).1 (mem_children_in.1 rightMember).1
  rw [same, rightFound] at leftFound
  exact (Option.some.inj leftFound).symm

theorem ids_without {nodes : List Node} (distinct : (nodes.map Node.id).Nodup) (id : NodeId) :
    (without id nodes).map Node.id = (nodes.map Node.id).erase id := by
  rw [distinct.erase_eq_filter, List.filter_map, without]
  congr 1
  apply List.filter_congr
  intro node _
  simp [bne, beq_eq_decide]

section Index

variable {nodes : List Node} {key : String}

theorem lt_of_head (sorted : nodes.Pairwise Ahead)
    (bound : ∀ first, nodes.head? = some first → key < indexOf first) :
    ∀ sibling ∈ nodes, key < indexOf sibling := by
  intro sibling member
  cases nodes with
  | nil => exact absurd member List.not_mem_nil
  | cons first rest =>
      have least := bound first rfl
      rcases List.mem_cons.1 member with rfl | later
      · exact least
      · exact String.lt_trans least ((List.pairwise_cons.1 sorted).1 sibling later)

theorem low_end (siblings : List Node) (position : Nat) :
    (if min position siblings.length = 0 then none
      else siblings[min position siblings.length - 1]?.map indexOf) =
      (siblings.take position).getLast?.map indexOf := by
  rw [List.getLast?_eq_getElem?, List.length_take]
  split
  · rename_i start
    rcases Nat.min_eq_zero_iff.1 start with atFront | noSiblings
    · rw [atFront]
      rfl
    · rw [List.length_eq_zero_iff.1 noSiblings]
      simp
  · rename_i further
    have inside : min position siblings.length - 1 < position := by omega
    rw [List.getElem?_take_of_lt inside]

theorem high_end (siblings : List Node) (position : Nat) :
    siblings[min position siblings.length]?.map indexOf =
      (siblings.drop position).head?.map indexOf := by
  rw [List.head?_drop]
  rcases Nat.le_total position siblings.length with inside | past
  · rw [Nat.min_eq_left inside]
  · rw [Nat.min_eq_right past, List.getElem?_eq_none (Nat.le_refl _), List.getElem?_eq_none past]

theorem index_is_key (wellFormed : document.WellFormed) {sibling : Node}
    (member : sibling ∈ document.childrenIn parent slot) : OrderKey.IsKey (indexOf sibling) := by
  obtain ⟨listed, stands⟩ := mem_children_in.1 member
  obtain ⟨placement, placed, _⟩ := stands_in_iff.1 stands
  rw [index_of_placed placed]
  exact OrderKey.check_ok_iff_is_key.1
    (wellFormed.keyed ((mem_all_nodes_iff wellFormed.stored).1 listed) placed)

/-- There is an index for every position among siblings, with those before the position below it and
the others above. -/
theorem index_at_ok (wellFormed : document.WellFormed)
    (present : ∃ above, document.get? parent = some above) (slot : String) (position : Nat) :
    ∃ key, document.indexAt parent slot position = .ok key ∧ OrderKey.IsKey key ∧
      (∀ sibling ∈ (document.childrenIn parent slot).take position, indexOf sibling < key) ∧
      ∀ sibling ∈ (document.childrenIn parent slot).drop position, key < indexOf sibling := by
  obtain ⟨above, found⟩ := present
  have sorted := children_in_ahead wellFormed parent slot
  generalize low : ((document.childrenIn parent slot).take position).getLast?.map indexOf = before
  generalize high : ((document.childrenIn parent slot).drop position).head?.map indexOf = after
  have fits : OrderKey.Fits before after := by
    rw [← low, ← high]
    refine ⟨?_, ?_, ?_⟩
    · intro left ending
      obtain ⟨sibling, last, rfl⟩ := Option.map_eq_some_iff.1 ending
      exact index_is_key wellFormed (List.mem_of_mem_take (List.mem_of_getLast? last))
    · intro right starting
      obtain ⟨sibling, first, rfl⟩ := Option.map_eq_some_iff.1 starting
      exact index_is_key wellFormed (List.mem_of_mem_drop (List.mem_of_head? first))
    · intro left right ending starting
      obtain ⟨earlier, last, rfl⟩ := Option.map_eq_some_iff.1 ending
      obtain ⟨later, first, rfl⟩ := Option.map_eq_some_iff.1 starting
      rw [← List.take_append_drop position (document.childrenIn parent slot),
        List.pairwise_append] at sorted
      exact sorted.2.2 earlier (List.mem_of_getLast? last) later (List.mem_of_head? first)
  obtain ⟨key, made⟩ := OrderKey.exists_between_iff.2 fits
  obtain ⟨isKey, larger, smaller⟩ := OrderKey.between_is_key made
  refine ⟨key, ?_, isKey, ?_, ?_⟩
  · rw [indexAt, Outcome.bind_eq_ok]
    refine ⟨above, found_ok.2 (node_ok.2 found), ?_⟩
    simp only
    rw [low_end, high_end, low, high]
    exact keyed_ok.2 made
  · apply lt_of_last ((children_in_sorted parent slot).sublist (List.take_sublist _ _))
    intro last ending
    exact larger (indexOf last) (by rw [← low, ending]; rfl)
  · apply lt_of_head (sorted.sublist (List.drop_sublist _ _))
    intro first starting
    exact smaller (indexOf first) (by rw [← high, starting]; rfl)

end Index

section Position

variable {Item : Type} (position : Option Nat) (items : List Item)

def upTo : List Item :=
  match position with
  | some position => items.take position
  | none => items

def onFrom : List Item :=
  match position with
  | some position => items.drop position
  | none => []

theorem up_to_append_on_from : upTo position items ++ onFrom position items = items := by
  cases position with
  | some position => exact List.take_append_drop position items
  | none => exact List.append_nil items

theorem map_up_to {Other : Type} (change : Item → Other) :
    (upTo position items).map change = upTo position (items.map change) := by
  cases position with
  | some position => exact List.map_take
  | none => rfl

theorem map_on_from {Other : Type} (change : Item → Other) :
    (onFrom position items).map change = onFrom position (items.map change) := by
  cases position with
  | some position => exact List.map_drop
  | none => rfl

end Position

theorem insert_idx_min (ids : List NodeId) (position : Nat) (id : NodeId) :
    ids.insertIdx (min position ids.length) id = ids.take position ++ id :: ids.drop position := by
  induction ids generalizing position with
  | nil => simp
  | cons first rest ih =>
      cases position with
      | zero => simp
      | succ position => simp [Nat.succ_min_succ, ih]

theorem inserted_at_eq (position : Option Nat) (id : NodeId) (ids : List NodeId) :
    insertedAt position id ids = upTo position ids ++ id :: onFrom position ids := by
  cases position with
  | some position => exact insert_idx_min ids position id
  | none => rfl

theorem moved_to_eq (position : Option Nat) (id : NodeId) (ids : List NodeId) :
    movedTo position id ids =
      (upTo position ids).erase id ++ id :: (onFrom position ids).erase id := by
  cases position with
  | some position => rfl
  | none => rfl

theorem choose_free_index {slot key : String} (isKey : OrderKey.IsKey key)
    (free : ∀ sibling ∈ document.childrenIn parent slot, indexOf sibling ≠ key)
    (moving : Option NodeId) : document.chooseIndex parent slot (some key) moving = .ok key := by
  simp only [chooseIndex, Outcome.bind_eq_ok, keyed_ok, require_ok]
  refine ⟨(), OrderKey.check_ok_iff_is_key.2 isKey, (), ?_, trivial⟩
  rw [Bool.not_eq_true', List.any_eq_false]
  intro sibling member
  rw [decide_eq_true_eq]
  exact free sibling (List.mem_filter.1 member).1

/-- Where none is asked for there is always an index past those of the other siblings. -/
theorem choose_last_index (wellFormed : document.WellFormed) (parent : NodeId) (slot : String)
    (moving : Option NodeId) :
    ∃ key, document.chooseIndex parent slot none moving = .ok key ∧
      ∀ sibling ∈ document.childrenIn parent slot, some sibling.id ≠ moving →
        indexOf sibling < key := by
  generalize others : (document.childrenIn parent slot).filter
    (fun node => some node.id != moving) = siblings
  have sorted : siblings.Pairwise fun left right => comesBefore left right = true :=
    others ▸ (children_in_sorted parent slot).filter _
  have fits : OrderKey.Fits (siblings.getLast?.map indexOf) none := by
    refine ⟨?_, nofun, nofun⟩
    intro left ending
    obtain ⟨sibling, last, rfl⟩ := Option.map_eq_some_iff.1 ending
    have member := List.mem_of_getLast? last
    rw [← others] at member
    exact index_is_key wellFormed (List.mem_filter.1 member).1
  obtain ⟨key, made⟩ := OrderKey.exists_between_iff.2 fits
  refine ⟨key, ?_, ?_⟩
  · rw [chooseIndex, others]
    exact keyed_ok.2 made
  · intro sibling member other
    apply lt_of_last sorted
    · intro last ending
      exact (OrderKey.between_is_key made).2.1 (indexOf last) (by rw [ending]; rfl)
    · rw [← others]
      exact List.mem_filter.2 ⟨member, bne_iff_ne.2 other⟩

/-- The index that is chosen for a position lies between those of the siblings on both sides. -/
theorem chosen_at (wellFormed : document.WellFormed)
    (present : ∃ above, document.get? parent = some above) (slot : String)
    (position : Option Nat) (moving : Option NodeId) :
    ∃ wanted key, document.wantedIndex parent slot position = .ok wanted ∧
      document.chooseIndex parent slot wanted moving = .ok key ∧
      (∀ sibling ∈ upTo position (document.childrenIn parent slot),
        some sibling.id ≠ moving → indexOf sibling < key) ∧
      ∀ sibling ∈ onFrom position (document.childrenIn parent slot),
        some sibling.id ≠ moving → key < indexOf sibling := by
  cases position with
  | some position =>
      obtain ⟨key, asked, isKey, lower, upper⟩ := index_at_ok wellFormed present slot position
      have free : ∀ sibling ∈ document.childrenIn parent slot, indexOf sibling ≠ key := by
        intro sibling member same
        rw [← List.take_append_drop position (document.childrenIn parent slot)] at member
        rcases List.mem_append.1 member with before | after
        · exact String.lt_irrefl key (same ▸ lower sibling before)
        · exact String.lt_irrefl key (same ▸ upper sibling after)
      refine ⟨some key, key, ?_, choose_free_index isKey free moving,
        fun sibling member _ => lower sibling member, fun sibling member _ => upper sibling member⟩
      rw [wantedIndex, asked]
      rfl
  | none =>
      obtain ⟨key, chosen, past⟩ := choose_last_index wellFormed parent slot moving
      exact ⟨none, key, rfl, chosen, past, fun sibling member => absurd member List.not_mem_nil⟩

theorem slots_put {node : Node} {names : SortedMap NodeId} {key : String}
    {position : Option Nat} (wellFormed : document.WellFormed)
    (next : (document.put node names).WellFormed)
    (placed : node.placement = some ⟨parent, slot, key⟩)
    (lower : ∀ sibling ∈ upTo position (document.childrenIn parent slot),
      some sibling.id ≠ some node.id → indexOf sibling < key)
    (upper : ∀ sibling ∈ onFrom position (document.childrenIn parent slot),
      some sibling.id ≠ some node.id → key < indexOf sibling) :
    (document.put node names).slots =
      (SlotEdit.move node.id parent slot position).onSlots document.slots := by
  funext other otherSlot
  have distinct := ids_nodup wellFormed.stored other otherSlot
  rw [slots, SlotEdit.onSlots]
  split
  · rename_i here
    obtain ⟨rfl, rfl⟩ := here
    have split := (up_to_append_on_from position (document.childrenIn other otherSlot)).symm
    rw [children_put_here wellFormed next placed split
      (fun sibling member different => lower sibling member fun same =>
        different (Option.some.inj same))
      (fun sibling member different => upper sibling member fun same =>
        different (Option.some.inj same))]
    rw [slots, split, List.map_append, List.nodup_append] at distinct
    rw [List.map_append, List.map_cons, ids_without distinct.1, ids_without distinct.2.1,
      map_up_to, map_on_from, moved_to_eq, slots]
  · rename_i elsewhere
    have apart : standsIn other otherSlot node = false := by
      rw [Bool.eq_false_iff]
      intro stands
      obtain ⟨placement, here, same, sameSlot⟩ := stands_in_iff.1 stands
      cases placed.symm.trans here
      exact elsewhere ⟨same.symm, sameSlot.symm⟩
    rw [children_put_elsewhere wellFormed next apart, ids_without distinct]
    rfl

/-- A new identifier stands nowhere yet, so putting its node in is moving it in. -/
theorem add_on_slots_eq {node : Node} (stored : document.Stored)
    (absent : document.get? node.id = none) (position : Option Nat) :
    (SlotEdit.add node parent slot position).onSlots document.slots =
      (SlotEdit.move node.id parent slot position).onSlots document.slots := by
  have fresh (other : NodeId) (otherSlot : String) : node.id ∉ document.slots other otherSlot := by
    intro listed
    obtain ⟨sibling, member, same⟩ := List.mem_map.1 listed
    have found := (mem_all_nodes_iff stored).1 (mem_children_in.1 member).1
    rw [same, absent] at found
    cases found
  funext other otherSlot
  have missing := fresh other otherSlot
  rw [SlotEdit.onSlots, SlotEdit.onSlots]
  split
  · rw [← up_to_append_on_from position (document.slots other otherSlot), List.mem_append,
      not_or] at missing
    rw [inserted_at_eq, moved_to_eq, List.erase_of_not_mem missing.1,
      List.erase_of_not_mem missing.2]
  · rw [List.erase_of_not_mem missing]

theorem exists_add {node above : Node} {wanted : Option String} {key : String}
    (free : node.placement = none) (absent : document.get? node.id = none)
    (present : document.get? parent = some above)
    (fit : node.type.fitsUnder above.type = true)
    (chosen : document.chooseIndex parent slot wanted none = .ok key) :
    ∃ next, document.add node parent slot wanted = .ok next := by
  have fresh : (!document.nodes.contains node.id) = true := by
    rw [Bool.not_eq_true', SortedMap.contains, Option.isSome_eq_false_iff,
      Option.isNone_iff_eq_none]
    exact absent
  simp only [add, free, Outcome.bind_eq_ok, require_ok, found_ok, node_ok]
  exact ⟨_, (), fresh, above, present, (), fit, key, chosen, rfl⟩

theorem exists_move {id : NodeId} {node above : Node} {wanted : Option String} {key : String}
    (found : document.get? id = some node) (present : document.get? parent = some above)
    (fit : node.type.fitsUnder above.type = true) (other : id ≠ parent)
    (acyclic : ∀ ancestor ∈ document.ancestors parent, ancestor.id ≠ id)
    (chosen : document.chooseIndex parent slot wanted (some id) = .ok key) :
    ∃ next, document.move id parent slot wanted = .ok next := by
  have outside : (!(id = parent || (document.ancestors parent).any fun ancestor =>
      ancestor.id = id)) = true := by
    simpa [List.any_eq_false, other] using acyclic
  simp only [move, Outcome.bind_eq_ok, require_ok, found_ok, node_ok]
  exact ⟨_, node, found, above, present, (), fit, (), outside, key, chosen, rfl⟩

/-- What one edit does: it succeeds, and changes the lists as it says. -/
theorem edit_slot_ok (valid : document.Valid) {edit : SlotEdit} (passes : document.Passes edit) :
    ∃ next, document.editSlot edit = .ok next ∧ next.Valid ∧
      next.slots = edit.onSlots document.slots := by
  have wellFormed := valid.toWellFormed
  cases edit with
  | add node parent slot position =>
      obtain ⟨free, absent, above, present, fit⟩ := passes
      obtain ⟨wanted, key, asked, chosen, lower, upper⟩ :=
        chosen_at wellFormed ⟨above, present⟩ slot position none
      obtain ⟨next, added⟩ := exists_add free absent present fit chosen
      have nextValid := valid_add valid added
      refine ⟨next, Outcome.bind_eq_ok.2 ⟨wanted, asked, added⟩, nextValid, ?_⟩
      obtain ⟨_, _, _, otherKey, name, again, _, rfl⟩ := add_ok added
      cases chosen.symm.trans again
      rw [add_on_slots_eq valid.stored absent]
      exact slots_put wellFormed nextValid.toWellFormed rfl
        (fun sibling member _ => lower sibling member (by simp))
        (fun sibling member _ => upper sibling member (by simp))
  | move id parent slot position =>
      obtain ⟨node, above, found, present, fit, other, acyclic⟩ := passes
      obtain ⟨wanted, key, asked, chosen, lower, upper⟩ :=
        chosen_at wellFormed ⟨above, present⟩ slot position (some id)
      obtain ⟨next, moved⟩ := exists_move found present fit other acyclic chosen
      have nextValid := valid_move valid moved
      refine ⟨next, Outcome.bind_eq_ok.2 ⟨wanted, asked, moved⟩, nextValid, ?_⟩
      obtain ⟨same, _, otherKey, again, _, _, _, _, chosenAgain, rfl⟩ := move_ok moved
      cases found.symm.trans again
      cases chosen.symm.trans chosenAgain
      have own : node.id = id := valid.stored found
      subst own
      exact slots_put wellFormed nextValid.toWellFormed rfl lower upper

/-- Every position in a slot has an index. Nodes that are added or moved to a position come to stand
there, and nowhere does anything else change its place, so after any run of such edits the indexes
are in the order that was meant. -/
theorem slots_refine_lists (valid : document.Valid) :
    (∀ parent above, document.get? parent = some above → ∀ slot position,
        ∃ index, document.indexAt parent slot position = .ok index) ∧
      (∀ edit, document.Passes edit → ∃ next, document.editSlot edit = .ok next ∧
        next.slots = edit.onSlots document.slots) ∧
      ∀ edits last, SlotRun document edits last →
        last.slots = edits.foldl (fun slots edit => edit.onSlots slots) document.slots ∧
          ∀ parent slot, (last.childrenIn parent slot).Pairwise fun left right =>
            indexOf left < indexOf right := by
  refine ⟨?_, ?_, ?_⟩
  · intro parent above present slot position
    obtain ⟨key, asked, _⟩ := index_at_ok valid.toWellFormed ⟨above, present⟩ slot position
    exact ⟨key, asked⟩
  · intro edit passes
    obtain ⟨next, edited, _, same⟩ := edit_slot_ok valid passes
    exact ⟨next, edited, same⟩
  · intro edits last run
    induction run with
    | done => exact ⟨rfl, fun parent slot => children_in_ahead valid.toWellFormed parent slot⟩
    | step passes edited _ ih =>
        obtain ⟨next, again, nextValid, same⟩ := edit_slot_ok valid passes
        cases edited.symm.trans again
        rw [List.foldl_cons, ← same]
        exact ih nextValid

/-- A page with one element in its slot, and then with another one in front of it. -/
def oneElement : Document :=
  (ofRoot "r").run [.addNode ⟨"p", "home", none, .empty, .page .empty⟩ "r" "pages" none,
    .addNode ⟨"a", "a", none, .empty, .element .empty⟩ "p" "children" (some "V")]

def frontElement : Node := ⟨"b", "b", none, .empty, .element .empty⟩

def twoElements : Document := oneElement.run [.addNode frontElement "p" "children" (some "G")]

/-- The element that was put in front moves past the other. -/
theorem slots_refine_lists_sample :
    let edits : List SlotEdit :=
      [.add frontElement "p" "children" (some 0), .move "b" "p" "children" (some 2)]
    oneElement.Valid ∧ ∃ last, SlotRun oneElement edits last ∧
      last.slots "p" "children" = ["a", "b"] := by
  intro edits
  have valid : oneElement.Valid := valid_run (valid_of_root "r") _
  have typed (document : Document) (id : NodeId) (type : NodeType)
      (known : (document.get? id).map Node.type = some type) :
      ∃ node, document.get? id = some node ∧ node.type = type :=
    Option.map_eq_some_iff.1 known
  have adds : oneElement.Passes (.add frontElement "p" "children" (some 0)) := by
    obtain ⟨page, present, pageType⟩ := typed oneElement "p" .page (by decide +kernel)
    exact ⟨rfl, Option.isNone_iff_eq_none.1 (by decide +kernel), page, present, pageType ▸ rfl⟩
  obtain ⟨_, accepted, runs⟩ := slots_refine_lists valid
  have added : oneElement.editSlot (.add frontElement "p" "children" (some 0)) =
      .ok twoElements := by
    obtain ⟨next, edited, _⟩ := accepted _ adds
    obtain ⟨wanted, asked, done⟩ := Outcome.bind_eq_ok.1 edited
    have front : oneElement.wantedIndex "p" "children" (some 0) = .ok (some "G") := by
      decide +kernel
    cases asked.symm.trans front
    have same : twoElements = next := by
      rw [twoElements, Document.run, List.foldl_cons, List.foldl_nil, step, Action.apply, done]
    rw [same, edited]
  have moves : twoElements.Passes (.move "b" "p" "children" (some 2)) := by
    obtain ⟨element, found, elementType⟩ := typed twoElements "b" .element (by decide +kernel)
    obtain ⟨page, present, pageType⟩ := typed twoElements "p" .page (by decide +kernel)
    refine ⟨element, page, found, present, ?_, by decide, by decide +kernel⟩
    rw [elementType, pageType]
    rfl
  have before : oneElement.slots "p" "children" = ["a"] := by decide +kernel
  obtain ⟨last, moved, _⟩ :=
    (slots_refine_lists (valid_run valid _ : twoElements.Valid)).2.1 _ moves
  have run : SlotRun oneElement edits last := .step adds added (.step moves moved .done)
  refine ⟨valid, last, run, ?_⟩
  rw [(runs edits last run).1]
  simp only [edits, List.foldl_cons, List.foldl_nil, SlotEdit.onSlots, and_self, if_true, before]
  decide

end Document

end PageBuilder
