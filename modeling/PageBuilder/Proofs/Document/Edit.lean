import PageBuilder.Document.Edit
import PageBuilder.Proofs.Document.Valid
import PageBuilder.Proofs.FreshName
import PageBuilder.Proofs.OrderKey.Between
import PageBuilder.Proofs.Outcome

/-!
Every edit keeps documents valid. All but removal put one node into the document, so they are
settled by one statement about a node that is put where nothing stands in its way.
-/

namespace PageBuilder.Document

variable {document : Document}

/-- The node fits in where it says it stands, whether its identifier is new or known. -/
structure Settles (document : Document) (node : Node) : Prop where
  keeps : ∀ {old : Node}, document.get? node.id = some old → node.type = old.type
  named : ∀ {id : NodeId} {other : Node}, document.get? id = some other →
    other.name = node.name → id = node.id
  unplaced : node.placement = none → node.id = document.root
  lower : ∀ {placement : Placement}, node.placement = some placement → node.id ≠ document.root
  fits : ∀ {placement : Placement}, node.placement = some placement →
    ∃ parent, document.get? placement.parent = some parent ∧
      node.type.fitsUnder parent.type = true
  keyed : ∀ {placement : Placement}, node.placement = some placement →
    OrderKey.check placement.index = .ok ()
  apart : ∀ {placement : Placement}, node.placement = some placement →
    ∀ {id : NodeId} {other : Node}, document.get? id = some other →
      other.placement = some placement → id = node.id
  outside : ∀ {placement : Placement}, node.placement = some placement →
    ∀ distance, ¬Under document node.id distance placement.parent

def put (document : Document) (node : Node) (names : SortedMap NodeId) : Document :=
  { document with nodes := document.nodes.insert node.id node, names }

variable {node : Node} {names : SortedMap NodeId}

theorem get_put (id : NodeId) :
    (document.put node names).get? id = if id = node.id then some node else document.get? id := by
  rw [get?, put, SortedMap.get_insert]
  rfl

theorem get_put_cases {id : NodeId} {other : Node}
    (found : (document.put node names).get? id = some other) :
    id = node.id ∧ node = other ∨ id ≠ node.id ∧ document.get? id = some other := by
  rw [get_put] at found
  split at found
  · rename_i same
    exact Or.inl ⟨same, Option.some.inj found⟩
  · rename_i different
    exact Or.inr ⟨different, found⟩

theorem parent_id_put (id : NodeId) :
    (document.put node names).parentId? id =
      if id = node.id then node.parent? else document.parentId? id := by
  rw [parentId?, get_put]
  split
  · rfl
  · rfl

/-- A way up that does not pass the node is still there. -/
theorem under_put_outside {upper lower : NodeId} {distance : Nat}
    (under : Under document upper distance lower)
    (outside : ∀ steps, ¬Under document node.id steps lower) :
    Under (document.put node names) upper distance lower := by
  induction under with
  | self => exact .self
  | @up distance lower parent step _ ih =>
      have other : lower ≠ node.id := fun same => outside 0 (same ▸ .self)
      have kept : (document.put node names).parentId? lower = some parent := by
        rw [parent_id_put, if_neg other, step]
      exact .up kept (ih fun steps below => outside (steps + 1) (.up step below))

namespace Settles

theorem own_distance (wellFormed : document.WellFormed) (settles : document.Settles node) :
    ∃ distance, Under (document.put node names) document.root distance node.id := by
  cases here : node.placement with
  | none =>
      rw [settles.unplaced here]
      exact ⟨0, .self⟩
  | some placement =>
      obtain ⟨parent, found, _⟩ := settles.fits here
      obtain ⟨distance, under⟩ := wellFormed.reaches found
      have placed : (document.put node names).parentId? node.id = some placement.parent := by
        rw [parent_id_put, if_pos rfl, Node.parent?, here]
        rfl
      exact ⟨distance + 1, .up placed (under_put_outside under (settles.outside here))⟩

theorem reaches (wellFormed : document.WellFormed) (settles : document.Settles node)
    {lower : NodeId} {distance : Nat} (under : Under document document.root distance lower) :
    ∃ steps, Under (document.put node names) document.root steps lower := by
  induction under with
  | self => exact ⟨0, .self⟩
  | @up distance lower parent step _ ih =>
      by_cases same : lower = node.id
      · rw [same]
        exact settles.own_distance wellFormed
      · obtain ⟨steps, above⟩ := ih
        have kept : (document.put node names).parentId? lower = some parent := by
          rw [parent_id_put, if_neg same, step]
        exact ⟨steps + 1, .up kept above⟩

/-- A parent may have been replaced, but keeps its type. -/
theorem fits_put (settles : document.Settles node) {type : NodeType} {id : NodeId}
    {parent : Node} (found : document.get? id = some parent)
    (fit : type.fitsUnder parent.type = true) :
    ∃ upper, (document.put node names).get? id = some upper ∧
      type.fitsUnder upper.type = true := by
  by_cases same : id = node.id
  · subst same
    refine ⟨node, by rw [get_put, if_pos rfl], ?_⟩
    rw [settles.keeps found]
    exact fit
  · exact ⟨parent, by rw [get_put, if_neg same, found], fit⟩

theorem well_formed (wellFormed : document.WellFormed) (settles : document.Settles node) :
    (document.put node names).WellFormed where
  root := by
    obtain ⟨root, atRoot, application, free⟩ := wellFormed.root
    by_cases same : document.root = node.id
    · refine ⟨node, ?_, ?_, ?_⟩
      · exact (get_put _).trans (if_pos same)
      · rw [settles.keeps (same ▸ atRoot), application]
      · cases here : node.placement with
        | none => rfl
        | some placement => exact absurd same.symm (settles.lower here)
    · exact ⟨root, (get_put _).trans ((if_neg same).trans atRoot), application, free⟩
  stored := by
    intro id other found
    rcases get_put_cases found with new | old
    · rw [← new.2, new.1]
    · exact wellFormed.stored old.2
  named := by
    intro left right first second foundLeft foundRight same
    rcases get_put_cases foundLeft with newLeft | oldLeft
    · rcases get_put_cases foundRight with newRight | oldRight
      · rw [newLeft.1, newRight.1]
      · rw [newLeft.1, settles.named oldRight.2 (by rw [newLeft.2, same])]
    · rcases get_put_cases foundRight with newRight | oldRight
      · rw [newRight.1, settles.named oldLeft.2 (by rw [newRight.2, same])]
      · exact wellFormed.named oldLeft.2 oldRight.2 same
  unplaced := by
    intro id other found unplaced
    rcases get_put_cases found with new | old
    · rw [new.1]
      exact settles.unplaced (new.2 ▸ unplaced)
    · exact wellFormed.unplaced old.2 unplaced
  fits := by
    intro id other placement found placed
    rcases get_put_cases found with new | old
    · rw [← new.2] at placed ⊢
      obtain ⟨parent, present, fit⟩ := settles.fits placed
      exact settles.fits_put present fit
    · obtain ⟨parent, present, fit⟩ := wellFormed.fits old.2 placed
      exact settles.fits_put present fit
  keyed := by
    intro id other placement found placed
    rcases get_put_cases found with new | old
    · exact settles.keyed (new.2 ▸ placed)
    · exact wellFormed.keyed old.2 placed
  apart := by
    intro left right first second placement foundLeft foundRight placedLeft placedRight
    rcases get_put_cases foundLeft with newLeft | oldLeft
    · rcases get_put_cases foundRight with newRight | oldRight
      · rw [newLeft.1, newRight.1]
      · rw [newLeft.1, settles.apart (newLeft.2 ▸ placedLeft) oldRight.2 placedRight]
    · rcases get_put_cases foundRight with newRight | oldRight
      · rw [newRight.1, settles.apart (newRight.2 ▸ placedRight) oldLeft.2 placedLeft]
      · exact wellFormed.apart oldLeft.2 oldRight.2 placedLeft placedRight
  reaches := by
    intro id other found
    rcases get_put_cases found with new | old
    · rw [new.1]
      exact settles.own_distance wellFormed
    · obtain ⟨distance, under⟩ := wellFormed.reaches old.2
      exact settles.reaches wellFormed under

/-- The names of the new document: the node has its new name, and its old one is free. -/
theorem valid (valid : document.Valid) (settles : document.Settles node)
    (lookup : ∀ name, names.get? name =
      if name = node.name then some node.id
      else if (document.get? node.id).map Node.name = some name then none
      else document.names.get? name) :
    (document.put node names).Valid := by
  refine ⟨settles.well_formed valid.toWellFormed, ?_⟩
  intro name id
  have listed : (document.put node names).names.get? name = names.get? name := rfl
  rw [listed, lookup]
  by_cases own : name = node.name
  · rw [if_pos own, own]
    constructor
    · intro same
      cases same
      exact ⟨node, by rw [get_put, if_pos rfl], rfl⟩
    · intro held
      obtain ⟨other, found, same⟩ := held
      rcases get_put_cases found with new | old
      · rw [new.1]
      · rw [settles.named old.2 same]
  · -- Other names are those that were there, less the one that the node had.
    rw [if_neg own]
    constructor
    · intro found
      split at found
      · cases found
      · rename_i kept
        obtain ⟨other, present, same⟩ := (valid.indexed name id).1 found
        have different : id ≠ node.id := by
          intro here
          rw [← here, present, Option.map_some, same] at kept
          exact kept rfl
        exact ⟨other, by rw [get_put, if_neg different, present], same⟩
    · intro held
      obtain ⟨other, found, same⟩ := held
      rcases get_put_cases found with new | old
      · rw [new.2] at own
        exact absurd same.symm own
      · rw [if_neg, (valid.indexed name id).2 ⟨other, old.2, same⟩]
        intro former
        obtain ⟨before, present, named⟩ := Option.map_eq_some_iff.1 former
        exact old.1 (valid.named old.2 present (same.trans named.symm))

end Settles

theorem comes_before_iff {left right : Node} : comesBefore left right = true ↔
    indexOf left < indexOf right ∨ indexOf left = indexOf right ∧ left.id ≤ right.id := by
  simp [comesBefore]

theorem comes_before_trans (first second third : Node) (left : comesBefore first second = true)
    (right : comesBefore second third = true) : comesBefore first third = true := by
  rw [comes_before_iff] at left right ⊢
  rcases left with less | ⟨same, ids⟩
  · rcases right with later | ⟨equal, _⟩
    · exact Or.inl (String.lt_trans less later)
    · exact Or.inl (equal ▸ less)
  · rcases right with later | ⟨equal, more⟩
    · exact Or.inl (same ▸ later)
    · exact Or.inr ⟨same.trans equal, String.le_trans ids more⟩

theorem comes_before_total (first second : Node) :
    (comesBefore first second || comesBefore second first) = true := by
  rw [Bool.or_eq_true, comes_before_iff, comes_before_iff]
  by_cases less : indexOf first < indexOf second
  · exact Or.inl (Or.inl less)
  · by_cases more : indexOf second < indexOf first
    · exact Or.inr (Or.inl more)
    · have same : indexOf first = indexOf second := String.le_antisymm more less
      rcases String.le_total first.id second.id with before | after
      · exact Or.inl (Or.inr ⟨same, before⟩)
      · exact Or.inr (Or.inr ⟨same.symm, after⟩)

theorem children_in_sorted (parent : NodeId) (slot : String) :
    (document.childrenIn parent slot).Pairwise fun left right => comesBefore left right = true :=
  List.pairwise_mergeSort comes_before_trans comes_before_total _

theorem lt_of_last {siblings : List Node} {key : String}
    (sorted : siblings.Pairwise fun left right => comesBefore left right = true)
    (bound : ∀ last, siblings.getLast? = some last → indexOf last < key) :
    ∀ sibling ∈ siblings, indexOf sibling < key := by
  intro sibling member
  obtain ⟨last, ending⟩ := Option.isSome_iff_exists.1
    (List.getLast?_isSome.2 (List.ne_nil_of_mem member))
  have less := bound last ending
  obtain ⟨before, rfl⟩ := List.getLast?_eq_some_iff.1 ending
  rcases List.mem_append.1 member with earlier | here
  · have order := (List.pairwise_append.1 sorted).2.2 sibling earlier last List.mem_cons_self
    rcases comes_before_iff.1 order with smaller | ⟨same, _⟩
    · exact String.lt_trans smaller less
    · rw [same]
      exact less
  · rw [List.mem_singleton.1 here]
    exact less

theorem require_ok {condition : Bool} {fault : StructureFault} {done : Unit} :
    require condition fault = .ok done ↔ condition = true := by
  rw [require]
  split
  · rename_i holds
    simp [holds]
  · rename_i fails
    simp [fails]

theorem found_ok {Value : Type} {result : Except LookupFault Value} {value : Value} :
    found result = .ok value ↔ result = .ok value := by
  cases result with
  | error fault => simp [found]
  | ok value => simp [found]

theorem keyed_ok {Value : Type} {result : Except OrderKey.Fault Value} {value : Value} :
    keyed result = .ok value ↔ result = .ok value := by
  cases result with
  | error fault => simp [keyed]
  | ok value => simp [keyed]

/-- The chosen index is a key, and no sibling has it. -/
theorem choose_index_free {parent : NodeId} {slot key : String} {wanted : Option String}
    {moving : Option NodeId} (chosen : document.chooseIndex parent slot wanted moving = .ok key) :
    OrderKey.check key = .ok () ∧ ∀ sibling ∈ document.childrenIn parent slot,
      some sibling.id ≠ moving → indexOf sibling ≠ key := by
  have beside {sibling : Node} (member : sibling ∈ document.childrenIn parent slot)
      (other : some sibling.id ≠ moving) :
      sibling ∈ (document.childrenIn parent slot).filter fun node => some node.id != moving :=
    List.mem_filter.2 ⟨member, bne_iff_ne.2 other⟩
  cases wanted with
  | some index =>
      simp only [chooseIndex, Outcome.bind_eq_ok, keyed_ok, require_ok] at chosen
      obtain ⟨_, passed, _, free, same⟩ := chosen
      cases same
      refine ⟨passed, ?_⟩
      intro sibling member other same
      rw [Bool.not_eq_true', List.any_eq_false] at free
      exact free sibling (beside member other) (decide_eq_true same)
  | none =>
      simp only [chooseIndex, keyed_ok] at chosen
      obtain ⟨isKey, later, _⟩ := OrderKey.between_is_key chosen
      refine ⟨OrderKey.check_ok_iff_is_key.2 isKey, ?_⟩
      intro sibling member other same
      have order :
          (document.childrenIn parent slot).Pairwise fun left right => comesBefore left right :=
        children_in_sorted parent slot
      have past := lt_of_last (order.filter fun node => some node.id != moving)
        (fun last ending => later (indexOf last) (by rw [ending]; rfl)) sibling
          (beside member other)
      rw [same] at past
      exact String.lt_irrefl key past

theorem sibling_of_placement {id : NodeId} {other : Node} {placement : Placement}
    (found : document.get? id = some other) (placed : other.placement = some placement) :
    other ∈ document.childrenIn placement.parent placement.slot ∧
      indexOf other = placement.index := by
  constructor
  · refine mem_children_in.2 ⟨mem_all_nodes.2 ⟨id, found⟩, ?_⟩
    exact stands_in_iff.2 ⟨placement, placed, rfl, rfl⟩
  · rw [indexOf, placed]

theorem add_ok {parent : NodeId} {slot : String} {index : Option String} {next : Document}
    (added : document.add node parent slot index = .ok next) :
    node.placement = none ∧ document.get? node.id = none ∧
      (∃ above, document.get? parent = some above ∧ node.type.fitsUnder above.type = true) ∧
      ∃ key name, document.chooseIndex parent slot index none = .ok key ∧
        name = (if document.hasName node.name
          then FreshName.propose node.name document.names.keys else node.name) ∧
        next = document.put { node with name, placement := some ⟨parent, slot, key⟩ }
          (document.names.insert name node.id) := by
  simp only [add] at added
  cases unplaced : node.placement with
  | some placement =>
      rw [unplaced] at added
      cases added
  | none =>
      rw [unplaced] at added
      simp only [Outcome.bind_eq_ok, require_ok, found_ok, node_ok] at added
      obtain ⟨_, fresh, above, present, _, fit, key, chosen, same⟩ := added
      have absent : document.get? node.id = none := by
        rw [Bool.not_eq_true', SortedMap.contains, Option.isSome_eq_false_iff,
          Option.isNone_iff_eq_none] at fresh
        exact fresh
      cases same
      exact ⟨rfl, absent, ⟨above, present, fit⟩, key, _, chosen, rfl, rfl⟩

theorem move_ok {id parent : NodeId} {slot : String} {index : Option String} {next : Document}
    (moved : document.move id parent slot index = .ok next) :
    ∃ node above key, document.get? id = some node ∧ document.get? parent = some above ∧
      node.type.fitsUnder above.type = true ∧ id ≠ parent ∧
      (∀ ancestor ∈ document.ancestors parent, ancestor.id ≠ id) ∧
      document.chooseIndex parent slot index (some id) = .ok key ∧
      next = document.replace { node with placement := some ⟨parent, slot, key⟩ } := by
  simp only [move, Outcome.bind_eq_ok, require_ok, found_ok, node_ok] at moved
  obtain ⟨node, here, above, present, _, fit, _, acyclic, key, chosen, same⟩ := moved
  cases same
  simp only [Bool.not_eq_true', Bool.or_eq_false_iff, decide_eq_false_iff_not,
    List.any_eq_false, decide_eq_true_eq] at acyclic
  exact ⟨node, above, key, here, present, fit, acyclic.1, acyclic.2, chosen, rfl⟩

theorem rename_ok {id : NodeId} {name : String} {next : Document}
    (renamed : document.rename id name = .ok next) :
    ∃ node, document.get? id = some node ∧
      (node.name = name ∧ next = document ∨
        next = document.replace
          { node with name := FreshName.propose name (document.namesBeside id) }) := by
  simp only [rename, Outcome.bind_eq_ok, found_ok, node_ok] at renamed
  obtain ⟨node, here, done⟩ := renamed
  split at done
  · rename_i same
    cases done
    exact ⟨node, here, Or.inl ⟨same, rfl⟩⟩
  · cases done
    exact ⟨node, here, Or.inr rfl⟩

def withValue (name : String) (value : Option Bindable) (values : BindableMap) : BindableMap :=
  match value with
  | some value => values.insert name value
  | none => values.erase name

theorem set_value_eq {id : NodeId} {space : Namespace} {name : String} {value : Option Bindable}
    {next : Document} (changed : document.setValue id space name value = .ok next) :
    ∃ node, document.get? id = some node ∧
      next = document.replace (node.mapValues (withValue name value) space) := by
  simp only [setValue, Outcome.bind_eq_ok, found_ok, node_ok] at changed
  obtain ⟨node, here, done⟩ := changed
  split at done
  · cases done
  · cases done
    exact ⟨node, here, rfl⟩

theorem set_value_ok {id : NodeId} {space : Namespace} {name : String} {value : Option Bindable}
    {next : Document} (changed : document.setValue id space name value = .ok next) :
    ∃ node change, document.get? id = some node ∧
      next = document.replace (node.mapValues change space) := by
  obtain ⟨node, here, same⟩ := set_value_eq changed
  exact ⟨node, _, here, same⟩

def withState (node : Node) (change : SortedMap Json → SortedMap Json) : Node :=
  { node with kind := node.kind.mapState change }

theorem set_page_state_eq {page : NodeId} {slot : String} {value : Json} {next : Document}
    (changed : document.setPageState page slot value = .ok next) :
    ∃ node, document.get? page = some node ∧
      next = document.replace (withState node fun state => state.insert slot value) := by
  simp only [setPageState, Outcome.bind_eq_ok, found_ok, node_of_type_ok] at changed
  obtain ⟨node, here, done⟩ := changed
  cases done
  exact ⟨node, here.1, rfl⟩

theorem set_page_state_ok {page : NodeId} {slot : String} {value : Json} {next : Document}
    (changed : document.setPageState page slot value = .ok next) :
    ∃ node change, document.get? page = some node ∧
      next = document.replace (withState node change) := by
  obtain ⟨node, here, same⟩ := set_page_state_eq changed
  exact ⟨node, _, here, same⟩

theorem remove_page_state_eq {page : NodeId} {slot : String} {next : Document}
    (changed : document.removePageState page slot = .ok next) :
    ∃ node, document.get? page = some node ∧
      next = document.replace (withState node fun state => state.erase slot) := by
  simp only [removePageState, Outcome.bind_eq_ok, found_ok, node_of_type_ok] at changed
  obtain ⟨node, here, done⟩ := changed
  split at done
  · cases done
  · cases done
    exact ⟨node, here.1, rfl⟩

theorem remove_page_state_ok {page : NodeId} {slot : String} {next : Document}
    (changed : document.removePageState page slot = .ok next) :
    ∃ node change, document.get? page = some node ∧
      next = document.replace (withState node change) := by
  obtain ⟨node, here, same⟩ := remove_page_state_eq changed
  exact ⟨node, _, here, same⟩

theorem remove_ok {id : NodeId} {next : Document} (removed : document.remove id = .ok next) :
    ∃ node placement, document.get? id = some node ∧ node.placement = some placement ∧
      next =
        { document with
          nodes := (node :: document.descendants id).foldl
            (fun nodes node => nodes.erase node.id) document.nodes
          names := (node :: document.descendants id).foldl
            (fun names node => names.erase node.name) document.names } := by
  simp only [remove, Outcome.bind_eq_ok, found_ok, node_ok] at removed
  obtain ⟨node, here, done⟩ := removed
  split at done
  · cases done
  · rename_i placed
    cases done
    cases stands : node.placement with
    | none => exact absurd (by rw [stands]; rfl) placed
    | some placement => exact ⟨node, placement, here, stands, rfl⟩

/-- A type that fits under another is not that of the root. -/
theorem ne_root_of_fits (wellFormed : document.WellFormed) {id : NodeId} {node : Node}
    {type : NodeType} (found : document.get? id = some node)
    (fit : node.type.fitsUnder type = true) : id ≠ document.root := by
  intro same
  obtain ⟨root, atRoot, application, _⟩ := wellFormed.root
  rw [same, atRoot] at found
  cases found
  rw [application] at fit
  simp [NodeType.fitsUnder, NodeType.parents] at fit

theorem settles_in_place (wellFormed : document.WellFormed) {old : Node}
    (found : document.get? node.id = some old) (type : node.type = old.type)
    (place : node.placement = old.placement)
    (named : ∀ {id : NodeId} {other : Node}, document.get? id = some other →
      other.name = node.name → id = node.id) : document.Settles node where
  keeps := by
    intro other present
    cases found.symm.trans present
    exact type
  named := named
  unplaced := by
    intro unplaced
    exact wellFormed.unplaced found (place ▸ unplaced)
  lower := by
    intro placement placed
    obtain ⟨parent, _, fit⟩ := wellFormed.fits found (place ▸ placed)
    exact ne_root_of_fits wellFormed found fit
  fits := by
    intro placement placed
    obtain ⟨parent, present, fit⟩ := wellFormed.fits found (place ▸ placed)
    exact ⟨parent, present, type ▸ fit⟩
  keyed := by
    intro placement placed
    exact wellFormed.keyed found (place ▸ placed)
  apart := by
    intro placement placed id other present same
    exact wellFormed.apart present found same (place ▸ placed)
  outside := by
    intro placement placed distance under
    have step : document.parentId? node.id = some placement.parent := by
      rw [parent_id_of_get found, Node.parent?, ← place, placed]
      rfl
    exact wellFormed.rooted.not_under_self ⟨old, found⟩ (.up step under)

/-- A node whose index no sibling has fits in below a parent that takes it and is not below it. -/
theorem settles_at (wellFormed : document.WellFormed) {parent : NodeId} {slot key : String}
    {above : Node} (place : node.placement = some ⟨parent, slot, key⟩)
    (present : document.get? parent = some above)
    (fit : node.type.fitsUnder above.type = true) (passed : OrderKey.check key = .ok ())
    (free : ∀ sibling ∈ document.childrenIn parent slot, sibling.id ≠ node.id →
      indexOf sibling ≠ key)
    (keeps : ∀ {old : Node}, document.get? node.id = some old → node.type = old.type)
    (named : ∀ {id : NodeId} {other : Node}, document.get? id = some other →
      other.name = node.name → id = node.id)
    (lower : node.id ≠ document.root)
    (outside : ∀ distance, ¬Under document node.id distance parent) : document.Settles node where
  keeps := keeps
  named := named
  unplaced := by
    intro unplaced
    cases place.symm.trans unplaced
  lower := fun _ => lower
  fits := by
    intro placement placed
    cases place.symm.trans placed
    exact ⟨above, present, fit⟩
  keyed := by
    intro placement placed
    cases place.symm.trans placed
    exact passed
  apart := by
    intro placement placed id other found held
    cases place.symm.trans placed
    obtain ⟨sibling, indexed⟩ := sibling_of_placement found held
    by_contra different
    rw [← wellFormed.stored found] at different
    exact free other sibling different indexed
  outside := by
    intro placement placed
    cases place.symm.trans placed
    exact outside

/-- A node that is put in the place of another takes over its entry among the names. -/
theorem valid_replace (valid : document.Valid) {old : Node}
    (found : document.get? node.id = some old) (settles : document.Settles node) :
    (document.replace node).Valid := by
  have oldName : document.names.get? old.name = some node.id :=
    (valid.indexed old.name node.id).2 ⟨old, found, rfl⟩
  have shape : document.replace node = document.put node (document.replace node).names := by
    rfl
  rw [shape]
  refine settles.valid valid ?_
  intro name
  rw [found, Option.map_some, replace]
  simp only [found]
  by_cases same : old.name = node.name
  · rw [if_pos same]
    by_cases own : name = node.name
    · rw [if_pos own, own, ← same, oldName]
    · rw [if_neg own, if_neg]
      intro former
      exact own ((Option.some.inj former).symm.trans same)
  · rw [if_neg same, SortedMap.get_insert, SortedMap.get_erase]
    simp only [Option.some.injEq, eq_comm]

theorem valid_add (valid : document.Valid) {parent : NodeId} {slot : String}
    {index : Option String} {next : Document}
    (added : document.add node parent slot index = .ok next) : next.Valid := by
  obtain ⟨_, absent, ⟨above, present, fit⟩, key, name, chosen, given, rfl⟩ := add_ok added
  obtain ⟨passed, free⟩ := choose_index_free chosen
  have unused : name ∉ document.names.keys := by
    rw [given]
    split
    · exact FreshName.propose_not_mem _ _
    · rename_i unknown
      intro listed
      exact unknown (document.names.contains_iff.2 (document.names.mem_keys_iff.1 listed))
  let placed : Node := { node with name, placement := some ⟨parent, slot, key⟩ }
  have place : placed.placement = some ⟨parent, slot, key⟩ := rfl
  have settles : document.Settles placed := by
    apply settles_at valid.toWellFormed place present fit passed
    case free => exact fun sibling member _ => free sibling member (Option.some_ne_none _)
    case keeps =>
      intro old found
      cases absent.symm.trans found
    case named =>
      intro id other found same
      have indexed := (valid.indexed other.name id).2 ⟨other, found, rfl⟩
      rw [same] at indexed
      exact absurd (document.names.mem_keys_iff.2 ⟨id, indexed⟩) unused
    case lower =>
      intro same
      obtain ⟨root, atRoot, _⟩ := valid.root
      cases (absent.symm.trans (congrArg document.get? same)).trans atRoot
    case outside =>
      intro distance under
      obtain ⟨known, here⟩ := under.present_upper ⟨above, present⟩ valid.parent_present
      cases absent.symm.trans here
  refine settles.valid valid ?_
  intro other
  rw [SortedMap.get_insert, absent]
  simp

theorem valid_move (valid : document.Valid) {id parent : NodeId} {slot : String}
    {index : Option String} {next : Document}
    (moved : document.move id parent slot index = .ok next) : next.Valid := by
  obtain ⟨node, above, key, here, present, fit, other, acyclic, chosen, rfl⟩ := move_ok moved
  have own : node.id = id := valid.stored here
  subst own
  obtain ⟨passed, free⟩ := choose_index_free chosen
  let placed : Node := { node with placement := some ⟨parent, slot, key⟩ }
  have known : document.get? placed.id = some node := here
  have place : placed.placement = some ⟨parent, slot, key⟩ := rfl
  apply valid_replace valid known
  apply settles_at valid.toWellFormed place present fit passed
  case free =>
    exact fun sibling member different =>
      free sibling member fun same => different (Option.some.inj same)
  case keeps =>
    intro old found
    cases here.symm.trans found
    rfl
  case named => exact fun found same => valid.named found here same
  case lower => exact ne_root_of_fits valid.toWellFormed here fit
  case outside =>
    intro distance under
    cases distance with
    | zero => exact other under.eq_of_zero.symm
    | succ distance =>
        have member := (mem_ancestors_iff valid.stored valid.toWellFormed.rooted present).2
          ⟨here, distance, under⟩
        exact acyclic node member rfl

def NamedBeside (document : Document) (id : NodeId) (name : String) : Prop :=
  ∃ other node, document.get? other = some node ∧ other ≠ id ∧ node.name = name

theorem mem_names_beside_iff (valid : document.Valid) {id : NodeId} {name : String} :
    name ∈ document.namesBeside id ↔ NamedBeside document id name := by
  rw [namesBeside, List.mem_map]
  constructor
  · intro held
    obtain ⟨⟨bearer, other⟩, member, rfl⟩ := held
    obtain ⟨listed, different⟩ := List.mem_filter.1 member
    have known := document.names.mem_entries_iff.1 listed
    obtain ⟨node, found, same⟩ := (valid.indexed bearer other).1 known
    exact ⟨other, node, found, of_decide_eq_true different, same⟩
  · intro held
    obtain ⟨other, node, found, different, same⟩ := held
    have known := (valid.indexed name other).2 ⟨node, found, same⟩
    exact ⟨(name, other), List.mem_filter.2
      ⟨document.names.mem_entries_iff.2 known, decide_eq_true different⟩, rfl⟩

theorem valid_rename (valid : document.Valid) {id : NodeId} {name : String} {next : Document}
    (renamed : document.rename id name = .ok next) : next.Valid := by
  obtain ⟨node, here, done⟩ := rename_ok renamed
  have own : node.id = id := valid.stored here
  subst own
  rcases done with ⟨_, rfl⟩ | rfl
  · exact valid
  · refine valid_replace valid here (settles_in_place valid.toWellFormed here rfl rfl ?_)
    intro id other found same
    by_contra different
    exact FreshName.propose_not_mem _ _
      ((mem_names_beside_iff valid).2 ⟨id, other, found, different, same⟩)

/-- A change inside a node leaves its name alone. -/
theorem valid_replace_inside (valid : document.Valid) {old node : Node}
    (found : document.get? old.id = some old) (id : node.id = old.id)
    (type : node.type = old.type) (place : node.placement = old.placement)
    (name : node.name = old.name) : (document.replace node).Valid := by
  rw [← id] at found
  refine valid_replace valid found (settles_in_place valid.toWellFormed found type place ?_)
  intro other another present same
  exact valid.named present found (same.trans name)

theorem valid_set_value (valid : document.Valid) {id : NodeId} {space : Namespace}
    {name : String} {value : Option Bindable} {next : Document}
    (changed : document.setValue id space name value = .ok next) : next.Valid := by
  obtain ⟨node, change, here, rfl⟩ := set_value_ok changed
  have own : node.id = id := valid.stored here
  subst own
  apply valid_replace_inside valid here
  · cases space <;> rfl
  · exact node.type_map_values change space
  · cases space <;> rfl
  · cases space <;> rfl

theorem valid_with_state (valid : document.Valid) {page : NodeId} {node : Node}
    {change : SortedMap Json → SortedMap Json} (here : document.get? page = some node) :
    (document.replace (withState node change)).Valid := by
  have own : node.id = page := valid.stored here
  subst own
  apply valid_replace_inside valid here
  · rfl
  · exact node.kind.type_map_state change
  · rfl
  · rfl

theorem mem_subtree_iff (wellFormed : document.WellFormed)
    (here : document.get? node.id = some node) {other : Node} :
    other ∈ node :: document.descendants node.id ↔
      document.get? other.id = some other ∧
        ∃ distance, Under document node.id distance other.id := by
  rw [List.mem_cons, mem_descendants_iff wellFormed.stored wellFormed.rooted ⟨node, here⟩]
  constructor
  · intro listed
    rcases listed with rfl | ⟨present, distance, under⟩
    · exact ⟨here, 0, .self⟩
    · exact ⟨present, distance + 1, under⟩
  · intro held
    obtain ⟨present, distance, under⟩ := held
    cases distance with
    | zero =>
        rw [under.eq_of_zero, here] at present
        exact Or.inl (Option.some.inj present).symm
    | succ distance => exact Or.inr ⟨present, distance, under⟩

theorem get_remove (wellFormed : document.WellFormed) {id lower : NodeId} {next : Document}
    (removed : document.remove id = .ok next) {other : Node} :
    next.get? lower = some other ↔
      document.get? lower = some other ∧ ∀ distance, ¬Under document id distance lower := by
  obtain ⟨node, placement, here, _, rfl⟩ := remove_ok removed
  have own : node.id = id := wellFormed.stored here
  subst own
  rw [get?, SortedMap.get_foldl_erase]
  split
  · rename_i listed
    obtain ⟨gone, member, rfl⟩ := List.mem_map.1 listed
    obtain ⟨_, distance, under⟩ := (mem_subtree_iff wellFormed here).1 member
    constructor
    · intro absent
      cases absent
    · intro held
      exact absurd under (held.2 distance)
  · rename_i kept
    constructor
    · intro present
      refine ⟨present, ?_⟩
      intro distance under
      have same : other.id = lower := wellFormed.stored present
      subst same
      exact kept (List.mem_map.2
        ⟨other, (mem_subtree_iff wellFormed here).2 ⟨present, distance, under⟩, rfl⟩)
    · intro held
      exact held.1

theorem root_remove {id : NodeId} {next : Document} (removed : document.remove id = .ok next) :
    next.root = document.root := by
  obtain ⟨_, _, _, _, rfl⟩ := remove_ok removed
  rfl

theorem under_remove (wellFormed : document.WellFormed) {id lower upper : NodeId}
    {next : Document} (removed : document.remove id = .ok next) {distance : Nat}
    (under : Under document upper distance lower)
    (outside : ∀ steps, ¬Under document id steps lower) :
    Under next upper distance lower := by
  induction under with
  | self => exact .self
  | @up distance lower parent step _ ih =>
      obtain ⟨node, present, placed⟩ := Option.bind_eq_some_iff.1 step
      have kept := (get_remove wellFormed removed).2 ⟨present, outside⟩
      have still : next.parentId? lower = some parent := by
        rw [parent_id_of_get kept, placed]
      exact .up still (ih fun steps below => outside (steps + 1) (.up step below))

/-- Nodes that stay keep their parents. -/
theorem parent_id_of_removed (wellFormed : document.WellFormed) {id lower parent : NodeId}
    {next : Document} (removed : document.remove id = .ok next)
    (step : next.parentId? lower = some parent) : document.parentId? lower = some parent := by
  obtain ⟨node, present, placed⟩ := Option.bind_eq_some_iff.1 step
  rw [parent_id_of_get ((get_remove wellFormed removed).1 present).1, placed]

theorem under_of_removed (wellFormed : document.WellFormed) {id lower upper : NodeId}
    {next : Document} (removed : document.remove id = .ok next) {distance : Nat}
    (under : Under next upper distance lower) : Under document upper distance lower := by
  induction under with
  | self => exact .self
  | up step _ ih => exact .up (parent_id_of_removed wellFormed removed step) ih

theorem root_not_removed (wellFormed : document.WellFormed) {id : NodeId} {next : Document}
    (removed : document.remove id = .ok next) (distance : Nat) :
    ¬Under document id distance document.root := by
  intro under
  obtain ⟨node, placement, here, placed, _⟩ := remove_ok removed
  obtain ⟨root, atRoot, _, free⟩ := wellFormed.root
  cases distance with
  | zero =>
      rw [under.eq_of_zero, here] at atRoot
      cases atRoot
      cases placed.symm.trans free
  | succ distance =>
      obtain ⟨parent, step, _⟩ := under.of_succ
      cases wellFormed.rooted.top.symm.trans step

theorem well_formed_remove (wellFormed : document.WellFormed) {id : NodeId} {next : Document}
    (removed : document.remove id = .ok next) : next.WellFormed := by
  have held {lower : NodeId} {node : Node} :=
    @get_remove document wellFormed id lower next removed node
  constructor
  case root =>
    obtain ⟨root, atRoot, application, free⟩ := wellFormed.root
    rw [root_remove removed]
    exact ⟨root, held.2 ⟨atRoot, root_not_removed wellFormed removed⟩, application, free⟩
  case stored => exact fun found => wellFormed.stored (held.1 found).1
  case named =>
    exact fun foundLeft foundRight => wellFormed.named (held.1 foundLeft).1 (held.1 foundRight).1
  case unplaced =>
    intro lower node found unplaced
    rw [root_remove removed]
    exact wellFormed.unplaced (held.1 found).1 unplaced
  case fits =>
    intro lower node placement found placed
    obtain ⟨present, outside⟩ := held.1 found
    obtain ⟨parent, above, fit⟩ := wellFormed.fits present placed
    refine ⟨parent, held.2 ⟨above, ?_⟩, fit⟩
    intro distance under
    have step : document.parentId? lower = some placement.parent := by
      rw [parent_id_of_get present, Node.parent?, placed]
      rfl
    exact outside (distance + 1) (.up step under)
  case keyed => exact fun found => wellFormed.keyed (held.1 found).1
  case apart =>
    exact fun foundLeft foundRight => wellFormed.apart (held.1 foundLeft).1 (held.1 foundRight).1
  case reaches =>
    intro lower node found
    obtain ⟨present, outside⟩ := held.1 found
    obtain ⟨distance, under⟩ := wellFormed.reaches present
    rw [root_remove removed]
    exact ⟨distance, under_remove wellFormed removed under outside⟩

theorem valid_remove (valid : document.Valid) {id : NodeId} {next : Document}
    (removed : document.remove id = .ok next) : next.Valid := by
  refine ⟨well_formed_remove valid.toWellFormed removed, ?_⟩
  have held {lower : NodeId} {other : Node} :=
    @get_remove document valid.toWellFormed id lower next removed other
  intro name lower
  obtain ⟨node, placement, here, placed, same⟩ := remove_ok removed
  have own : node.id = id := valid.stored here
  subst own
  have names : next.names.get? name =
      if name ∈ (node :: document.descendants node.id).map Node.name then none
      else document.names.get? name := by
    rw [same]
    exact SortedMap.get_foldl_erase _ _ _ _
  rw [names]
  constructor
  · intro found
    split at found
    · cases found
    · rename_i kept
      obtain ⟨other, present, named⟩ := (valid.indexed name lower).1 found
      refine ⟨other, held.2 ⟨present, ?_⟩, named⟩
      intro distance under
      have stored : other.id = lower := valid.stored present
      subst stored
      exact kept (List.mem_map.2 ⟨other,
        (mem_subtree_iff valid.toWellFormed here).2 ⟨present, distance, under⟩, named⟩)
  · intro bears
    obtain ⟨other, found, named⟩ := bears
    obtain ⟨present, outside⟩ := held.1 found
    rw [if_neg, (valid.indexed name lower).2 ⟨other, present, named⟩]
    intro listed
    obtain ⟨gone, member, shared⟩ := List.mem_map.1 listed
    obtain ⟨known, distance, under⟩ := (mem_subtree_iff valid.toWellFormed here).1 member
    have equal := valid.named present known (named.trans shared.symm)
    exact outside distance (equal ▸ under)

end PageBuilder.Document
