import PageBuilder.Document.Check
import PageBuilder.Proofs.Document.Tree
import PageBuilder.Proofs.Outcome
import Mathlib.Data.List.Pairwise

/-!
What the check of a document asks for, as one property of its nodes. A valid document has that
property, and its names lead to the nodes that bear them.
-/

namespace PageBuilder.Document

/-- One unplaced application node at the root, and all others in fitting places below it. -/
structure WellFormed (document : Document) : Prop where
  root : ∃ node, document.get? document.root = some node ∧ node.type = .application ∧
    node.placement = none
  stored : document.Stored
  named : ∀ {left right : NodeId} {first second : Node}, document.get? left = some first →
    document.get? right = some second → first.name = second.name → left = right
  unplaced : ∀ {id : NodeId} {node : Node}, document.get? id = some node →
    node.placement = none → id = document.root
  fits : ∀ {id : NodeId} {node : Node} {placement : Placement}, document.get? id = some node →
    node.placement = some placement →
    ∃ parent, document.get? placement.parent = some parent ∧
      node.type.fitsUnder parent.type = true
  keyed : ∀ {id : NodeId} {node : Node} {placement : Placement}, document.get? id = some node →
    node.placement = some placement → OrderKey.check placement.index = .ok ()
  apart : ∀ {left right : NodeId} {first second : Node} {placement : Placement},
    document.get? left = some first → document.get? right = some second →
    first.placement = some placement → second.placement = some placement → left = right
  reaches : ∀ {id : NodeId} {node : Node}, document.get? id = some node →
    ∃ distance, Under document document.root distance id

/-- The index of names is the inverse of the names that nodes bear. -/
def Indexed (document : Document) : Prop :=
  ∀ name id, document.names.get? name = some id ↔
    ∃ node, document.get? id = some node ∧ node.name = name

structure Valid (document : Document) : Prop extends WellFormed document where
  indexed : document.Indexed

variable {document : Document}

namespace WellFormed

theorem rooted (wellFormed : document.WellFormed) : document.Rooted := by
  obtain ⟨node, found, _, unplaced⟩ := wellFormed.root
  refine ⟨⟨node, found⟩, ?_, wellFormed.reaches⟩
  rw [parent_id_of_get found, Node.parent?, unplaced]
  rfl

/-- The node that a placed node stands in is there. -/
theorem parent_present (wellFormed : document.WellFormed) {id parent : NodeId}
    (step : document.parentId? id = some parent) :
    ∃ upper, document.get? parent = some upper := by
  obtain ⟨node, found, placed⟩ := Option.bind_eq_some_iff.1 step
  obtain ⟨placement, here, rfl⟩ := Option.map_eq_some_iff.1 placed
  obtain ⟨upper, present, _⟩ := wellFormed.fits found here
  exact ⟨upper, present⟩

end WellFormed

theorem reaches_root_iff (stored : document.Stored)
    (top : ∃ node, document.get? document.root = some node) {height : Nat} {node : Node}
    (found : document.get? node.id = some node) :
    document.reachesRoot height node = true ↔
      ∃ distance < height, Under document document.root distance node.id := by
  -- The way up may be longer than the height allows, so the bound goes down with the height.
  induction height generalizing node with
  | zero => simp [reachesRoot]
  | succ height ih =>
      rw [reachesRoot]
      split
      · rename_i same
        simp only [true_iff]
        exact ⟨0, Nat.succ_pos height, same ▸ .self⟩
      · rename_i other
        split
        · rename_i parent here
          rw [ih ((parent_of_eq_some_iff stored found).1 here).2]
          constructor
          · intro held
            obtain ⟨distance, bound, under⟩ := held
            exact ⟨distance + 1, by omega, (under_succ_iff stored found here).2 under⟩
          · intro held
            obtain ⟨distance, bound, under⟩ := held
            cases distance with
            | zero => exact absurd under.eq_of_zero other
            | succ distance =>
                exact ⟨distance, by omega, (under_succ_iff stored found here).1 under⟩
        · rename_i unplaced
          simp only [Bool.false_eq_true, false_iff]
          intro held
          obtain ⟨distance, _, under⟩ := held
          cases distance with
          | zero => exact other under.eq_of_zero
          | succ distance => exact not_under_succ stored found unplaced top distance under

def Apart (earlier later : Node) : Prop :=
  earlier.name ≠ later.name ∧
    ∀ placement, later.placement = some placement → earlier.placement ≠ some placement

theorem Apart.symm {earlier later : Node} (apart : Apart earlier later) : Apart later earlier :=
  ⟨apart.1.symm, fun placement placed other => apart.2 placement other placed⟩

/-- What a node is asked for by itself. -/
structure Sound (document : Document) (id : NodeId) (node : Node) : Prop where
  stored : id = node.id
  unplaced : node.placement = none → node.id = document.root
  fits : ∀ placement, node.placement = some placement →
    ∃ parent, document.get? placement.parent = some parent ∧
      node.type.fitsUnder parent.type = true
  keyed : ∀ placement, node.placement = some placement →
    OrderKey.check placement.index = .ok ()
  reaches : ∀ placement, node.placement = some placement →
    document.reachesRoot document.size node = true

theorem parent_violations_nil_iff {node : Node} {placement : Placement} :
    document.parentViolations node placement = [] ↔
      ∃ parent, document.get? placement.parent = some parent ∧
        node.type.fitsUnder parent.type = true := by
  rw [parentViolations]
  split
  · rename_i missing
    simp [missing]
  · rename_i parent found
    simp [found]

theorem index_violations_nil_iff {node : Node} {placement : Placement} :
    indexViolations node placement = [] ↔ OrderKey.check placement.index = .ok () := by
  rw [indexViolations]
  split
  · rename_i passed
    simp [passed]
  · rename_i fault failed
    simp [failed]

theorem sound_unplaced_iff {id : NodeId} {node : Node} (here : node.placement = none) :
    document.Sound id node ↔ id = node.id ∧ node.id = document.root := by
  constructor
  · intro sound
    exact ⟨sound.stored, sound.unplaced here⟩
  · intro held
    obtain ⟨own, top⟩ := held
    have absurd {placement : Placement} (placed : node.placement = some placement) : False := by
      rw [here] at placed
      cases placed
    exact ⟨own, fun _ => top, fun _ placed => (absurd placed).elim,
      fun _ placed => (absurd placed).elim, fun _ placed => (absurd placed).elim⟩

theorem sound_placed_iff {id : NodeId} {node : Node} {placement : Placement}
    (here : node.placement = some placement) :
    document.Sound id node ↔ id = node.id ∧
      (∃ parent, document.get? placement.parent = some parent ∧
        node.type.fitsUnder parent.type = true) ∧
      OrderKey.check placement.index = .ok () ∧
      document.reachesRoot document.size node = true := by
  constructor
  · intro sound
    exact ⟨sound.stored, sound.fits placement here, sound.keyed placement here,
      sound.reaches placement here⟩
  · intro held
    obtain ⟨own, fits, keyed, reaches⟩ := held
    have same {other : Placement} (placed : node.placement = some other) : placement = other :=
      Option.some.inj (here.symm.trans placed)
    constructor
    case stored => exact own
    case unplaced =>
      intro unplaced
      cases here.symm.trans unplaced
    case fits => exact fun other placed => same placed ▸ fits
    case keyed => exact fun other placed => same placed ▸ keyed
    case reaches => exact fun other placed => reaches

theorem apart_unplaced_iff {earlier later : Node} (here : later.placement = none) :
    Apart earlier later ↔ earlier.name ≠ later.name := by
  simp [Apart, here]

theorem apart_placed_iff {earlier later : Node} {placement : Placement}
    (here : later.placement = some placement) :
    Apart earlier later ↔ earlier.name ≠ later.name ∧ earlier.placement ≠ some placement := by
  simp [Apart, here]

theorem name_repeated_nil_iff {earlier : List Node} {node : Node} :
    (if earlier.any fun other => other.name = node.name
      then [Violation.nameRepeated node.name] else []) = [] ↔
      ∀ other ∈ earlier, other.name ≠ node.name := by
  simp

theorem place_repeated_nil_iff {earlier : List Node} {placement : Placement} :
    (if earlier.any fun other => other.placement = some placement
      then [Violation.placeRepeated placement] else []) = [] ↔
      ∀ other ∈ earlier, other.placement ≠ some placement := by
  simp

theorem node_violations_nil_iff {earlier : List Node} {id : NodeId} {node : Node} :
    document.nodeViolations earlier (id, node) = [] ↔
      document.Sound id node ∧ ∀ other ∈ earlier, Apart other node := by
  rw [nodeViolations, List.append_eq_nil_iff, List.append_eq_nil_iff]
  simp only [name_repeated_nil_iff, ite_eq_left_iff, List.cons_ne_nil, imp_false,
    Decidable.not_not]
  cases here : node.placement with
  | none =>
      simp only [placementViolations, here, sound_unplaced_iff here, apart_unplaced_iff here,
        ite_eq_left_iff, List.cons_ne_nil, imp_false, Decidable.not_not]
      tauto
  | some placement =>
      simp only [placementViolations, here, List.append_eq_nil_iff, parent_violations_nil_iff,
        index_violations_nil_iff, place_repeated_nil_iff, sound_placed_iff here,
        apart_placed_iff here, forall₂_and, ite_eq_left_iff, List.cons_ne_nil, imp_false,
        Bool.not_eq_true, Bool.not_eq_false]
      tauto

theorem nodes_violations_nil_iff {earlier : List Node} {entries : List (NodeId × Node)} :
    document.nodesViolations earlier entries = [] ↔
      (∀ entry ∈ entries, document.Sound entry.1 entry.2 ∧ ∀ other ∈ earlier, Apart other entry.2) ∧
        entries.Pairwise fun first second => Apart first.2 second.2 := by
  -- Each node is held against all before it, those of the list and the earlier ones.
  induction entries generalizing earlier with
  | nil => simp [nodesViolations]
  | cons entry rest ih =>
      rw [nodesViolations, List.append_eq_nil_iff, ih, List.pairwise_cons]
      have own := @node_violations_nil_iff document earlier entry.1 entry.2
      rw [own]
      constructor
      · intro held
        obtain ⟨⟨sound, apart⟩, later, pairs⟩ := held
        refine ⟨?_, ?_, pairs⟩
        · intro other member
          rcases List.mem_cons.1 member with rfl | inside
          · exact ⟨sound, apart⟩
          · refine ⟨(later other inside).1, ?_⟩
            intro before known
            exact (later other inside).2 before (List.mem_cons_of_mem _ known)
        · intro other inside
          exact (later other inside).2 entry.2 List.mem_cons_self
      · intro held
        obtain ⟨all, first, pairs⟩ := held
        refine ⟨all entry List.mem_cons_self, ?_, pairs⟩
        intro other inside
        obtain ⟨sound, apart⟩ := all other (List.mem_cons_of_mem _ inside)
        refine ⟨sound, ?_⟩
        intro before known
        rcases List.mem_cons.1 known with rfl | old
        · exact first other inside
        · exact apart before old

theorem root_violations_nil_iff : document.rootViolations = [] ↔
    ∃ node, document.get? document.root = some node ∧ node.type = .application ∧
      node.placement = none := by
  rw [rootViolations]
  split
  · rename_i missing
    simp [missing]
  · rename_i node found
    simp [found]

theorem Sound.reaches_root (stored : document.Stored)
    (top : ∃ node, document.get? document.root = some node) {id : NodeId} {node : Node}
    (sound : document.Sound id node) (found : document.get? id = some node) :
    ∃ distance, Under document document.root distance id := by
  have own : node.id = id := stored found
  cases here : node.placement with
  | none =>
      rw [← own, sound.unplaced here]
      exact ⟨0, .self⟩
  | some placement =>
      subst own
      obtain ⟨distance, _, under⟩ :=
        (reaches_root_iff stored top found).1 (sound.reaches placement here)
      exact ⟨distance, under⟩

namespace WellFormed

theorem sound (wellFormed : document.WellFormed) {id : NodeId} {node : Node}
    (found : document.get? id = some node) : document.Sound id node := by
  have own : node.id = id := wellFormed.stored found
  subst own
  constructor
  case stored => rfl
  case unplaced => exact wellFormed.unplaced found
  case fits => exact fun placement placed => wellFormed.fits found placed
  case keyed => exact fun placement placed => wellFormed.keyed found placed
  case reaches =>
    intro placement placed
    obtain ⟨distance, under⟩ := wellFormed.reaches found
    apply (reaches_root_iff wellFormed.stored wellFormed.rooted.present found).2
    exact ⟨distance, wellFormed.rooted.distance_lt_size under, under⟩

theorem apart_of_ne (wellFormed : document.WellFormed) {left right : NodeId}
    {first second : Node} (foundLeft : document.get? left = some first)
    (foundRight : document.get? right = some second) (other : left ≠ right) :
    Apart first second := by
  constructor
  · intro same
    exact other (wellFormed.named foundLeft foundRight same)
  · intro placement placedRight placedLeft
    exact other (wellFormed.apart foundLeft foundRight placedLeft placedRight)

/-- What is asked for node by node, and of every two nodes, makes a document well formed. -/
theorem of_sound (root : ∃ node, document.get? document.root = some node ∧
      node.type = .application ∧ node.placement = none)
    (sound : ∀ {id : NodeId} {node : Node}, document.get? id = some node →
      document.Sound id node)
    (differ : ∀ {left right : NodeId} {first second : Node},
      document.get? left = some first → document.get? right = some second → left ≠ right →
        Apart first second) : document.WellFormed := by
  have stored : document.Stored := fun found => (sound found).stored.symm
  have top : ∃ node, document.get? document.root = some node := by
    obtain ⟨node, found, _⟩ := root
    exact ⟨node, found⟩
  constructor
  case root => exact root
  case stored => exact stored
  case named =>
    intro left right first second foundLeft foundRight same
    by_contra other
    exact (differ foundLeft foundRight other).1 same
  case unplaced =>
    intro id node found unplaced
    rw [← stored found]
    exact (sound found).unplaced unplaced
  case fits => exact fun found placed => (sound found).fits _ placed
  case keyed => exact fun found placed => (sound found).keyed _ placed
  case apart =>
    intro left right first second placement foundLeft foundRight placedLeft placedRight
    by_contra other
    exact (differ foundLeft foundRight other).2 placement placedRight placedLeft
  case reaches => exact fun found => (sound found).reaches_root stored top found

end WellFormed

/-- The check finds nothing exactly in well-formed documents. -/
theorem violations_nil_iff : document.violations = [] ↔ document.WellFormed := by
  have entry_iff {id : NodeId} {node : Node} :
      (id, node) ∈ document.nodes.entries ↔ document.get? id = some node :=
    document.nodes.mem_entries_iff
  rw [violations, List.append_eq_nil_iff, root_violations_nil_iff, nodes_violations_nil_iff]
  constructor
  · intro passed
    obtain ⟨root, sound, pairs⟩ := passed
    apply WellFormed.of_sound root
    · intro id node found
      exact (sound (id, node) (entry_iff.2 found)).1
    · intro left right first second foundLeft foundRight other
      have symmetric : Std.Symm fun first second : NodeId × Node => Apart first.2 second.2 :=
        ⟨fun _ _ => Apart.symm⟩
      exact pairs.forall (entry_iff.2 foundLeft) (entry_iff.2 foundRight)
        fun same => other (congrArg Prod.fst same)
  · intro wellFormed
    refine ⟨wellFormed.root, ?_, ?_⟩
    · intro entry member
      refine ⟨wellFormed.sound (entry_iff.1 member), ?_⟩
      intro other listed
      exact absurd listed List.not_mem_nil
    · refine document.nodes.sorted.imp_of_mem ?_
      intro first second firstMember secondMember smaller
      have other : first.1 ≠ second.1 := fun same => String.lt_irrefl _ (same ▸ smaller)
      exact wellFormed.apart_of_ne (entry_iff.1 firstMember) (entry_iff.1 secondMember) other

/-- The names that are read off the nodes of a well-formed document lead back to them. -/
theorem indexed_of_list {root : NodeId} {nodes : SortedMap Node}
    (wellFormed : WellFormed ⟨root, nodes, SortedMap.ofList
      (nodes.values.map fun node => (node.name, node.id))⟩) :
    Indexed ⟨root, nodes, SortedMap.ofList
      (nodes.values.map fun node => (node.name, node.id))⟩ := by
  have entry {name : String} {id : NodeId} :
      (name, id) ∈ (nodes.values.map fun node => (node.name, node.id)) ↔
        ∃ node, nodes.get? id = some node ∧ node.name = name := by
    rw [List.mem_map]
    constructor
    · intro listed
      obtain ⟨node, member, same⟩ := listed
      cases same
      obtain ⟨key, found⟩ := nodes.mem_values_iff.1 member
      have own : node.id = key := wellFormed.stored found
      exact ⟨node, own ▸ found, rfl⟩
    · intro held
      obtain ⟨node, found, rfl⟩ := held
      have own : node.id = id := wellFormed.stored found
      exact ⟨node, nodes.mem_values_iff.2 ⟨id, found⟩, by rw [own]⟩
  intro name id
  refine (SortedMap.get_of_list_iff ?_).trans entry
  intro name left right first second
  obtain ⟨one, foundOne, sameOne⟩ := entry.1 first
  obtain ⟨two, foundTwo, sameTwo⟩ := entry.1 second
  exact wellFormed.named foundOne foundTwo (sameOne.trans sameTwo.symm)

/-- Nodes are taken as a document exactly if the document is valid. -/
theorem valid_of_nodes {root : NodeId} {nodes : SortedMap Node}
    (accepted : ofNodes root nodes = .ok document) : document.Valid := by
  simp only [ofNodes] at accepted
  split at accepted
  · rename_i passed
    cases accepted
    have wellFormed := violations_nil_iff.1 passed
    exact ⟨wellFormed, indexed_of_list wellFormed⟩
  · cases accepted

theorem node_ok {id : NodeId} {value : Node} :
    document.node id = .ok value ↔ document.get? id = some value := by
  rw [Document.node]
  split
  · rename_i present
    simp [present]
  · rename_i missing
    simp [missing]

theorem node_of_type_ok {id : NodeId} {type : NodeType} {value : Node} :
    document.nodeOfType id type = .ok value ↔
      document.get? id = some value ∧ value.type = type := by
  simp only [nodeOfType, Outcome.bind_eq_ok, node_ok]
  constructor
  · intro held
    obtain ⟨node, here, done⟩ := held
    split at done
    · rename_i fitting
      cases done
      exact ⟨here, fitting⟩
    · cases done
  · intro held
    obtain ⟨here, fitting⟩ := held
    exact ⟨value, here, by rw [if_pos fitting]⟩

theorem node_named_iff {document : Document} (valid : document.Valid) {name : String}
    {node : Node} :
    document.nodeNamed? name = some node ↔ node ∈ document.allNodes ∧ node.name = name := by
  rw [nodeNamed?, Option.bind_eq_some_iff, mem_all_nodes]
  constructor
  · intro held
    obtain ⟨id, indexed, found⟩ := held
    obtain ⟨other, present, named⟩ := (valid.indexed name id).1 indexed
    rw [found] at present
    cases present
    exact ⟨⟨id, found⟩, named⟩
  · intro held
    obtain ⟨⟨id, found⟩, named⟩ := held
    exact ⟨id, (valid.indexed name id).2 ⟨node, found, named⟩, found⟩

theorem has_name_iff {document : Document} (valid : document.Valid) {name : String} :
    document.hasName name = true ↔ ∃ node ∈ document.allNodes, node.name = name := by
  rw [hasName, SortedMap.contains_iff]
  constructor
  · intro held
    obtain ⟨id, indexed⟩ := held
    obtain ⟨node, found, named⟩ := (valid.indexed name id).1 indexed
    exact ⟨node, mem_all_nodes.2 ⟨id, found⟩, named⟩
  · intro held
    obtain ⟨node, member, named⟩ := held
    obtain ⟨id, found⟩ := mem_all_nodes.1 member
    exact ⟨id, (valid.indexed name id).2 ⟨node, found, named⟩⟩

end PageBuilder.Document
