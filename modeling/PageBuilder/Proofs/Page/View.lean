import PageBuilder.Proofs.Page.State

/-!
A view of a page holds the state that the page has, under the entries that the nodes call for, and
finds what bindings and references name.
-/

namespace PageBuilder

def StateKey.Suits : StateKey → NodeType → Prop
  | .pageSlot _ _, type => type = .page
  | .node _, type => type.isPageState = true
  | .prop _ _, type => type = .element

def StateKey.ofType? (type : NodeType) (id : NodeId) (slot : String) : Option StateKey :=
  match type with
  | .page => some (.pageSlot id slot)
  | .element => some (.prop id slot)
  | .derivedState | .queryState | .fetchedState =>
      if slot = stateValueSlot then some (.node id) else none
  | _ => none

theorem StateKey.of_type_iff {type : NodeType} {id : NodeId} {slot : String} {key : StateKey} :
    StateKey.ofType? type id slot = some key ↔ key.address = (id, slot) ∧ key.Suits type := by
  cases type
  all_goals cases key
  all_goals simp [ofType?, address, Suits, NodeType.isPageState, eq_comm, and_comm]

theorem StateKey.address_owner (key : StateKey) : key.address.1 = key.owner := by
  cases key
  all_goals rfl

theorem StateKey.address_of_pair {key : StateKey} (pair : PageView.isPair key = true) :
    key.address = (key.owner, key.second) := by
  cases key with
  | node id => cases pair
  | pageSlot page slot => rfl
  | prop element name => rfl

theorem StateKey.Suits.pair_iff {key : StateKey} {type : NodeType} (suits : key.Suits type) :
    PageView.isPair key = true ↔ type.isPageState = false := by
  cases key with
  | node id =>
      have state : type.isPageState = true := suits
      simp [PageView.isPair, state]
  | pageSlot page slot =>
      cases suits
      exact ⟨fun _ => rfl, fun _ => rfl⟩
  | prop element name =>
      cases suits
      exact ⟨fun _ => rfl, fun _ => rfl⟩

def PageView.slotOn? (view : PageView) (id : NodeId) :
    List PathSegment → Option (StateKey × List PathSegment)
  | .field slot :: rest => (view.target? id slot).map fun key => (key, rest)
  | _ => none

def PageView.pathFrom? (view : PageView) (node : Node)
    (segments : List PathSegment) : Option (StateKey × List PathSegment) :=
  match node.type with
  | .derivedState | .queryState | .fetchedState => some (.node node.id, segments)
  | .page | .element => view.slotOn? node.id segments
  | _ => none

theorem PageView.reference_target_eq (view : PageView) (reference : Reference) :
    view.referenceTarget? reference =
      (view.document.nodeNamed? reference.root).bind fun node =>
        if view.inside.contains node.id then view.pathFrom? node reference.segments else none := by
  rfl

namespace Document

variable {document : Document} {page : Node} {schema : PropSchema}

/-- The entries that the nodes of a page call for. -/
inductive Entered (document : Document) (page : Node) (schema : PropSchema) :
    StateKey → StateEntry → Prop
  | slot {slots : SortedMap Json} {slot : String} {value : Json}
      (held : page.kind.state? = some slots) (listed : slots.get? slot = some value) :
      Entered document page schema (.pageSlot page.id slot) (.pageSlot value)
  | node {node : Node} (found : document.get? node.id = some node)
      (child : document.parentId? node.id = some page.id)
      (type : node.type.isPageState = true) :
      Entered document page schema (.node node.id) (.node node)
  | prop {element : Node} {component prop : String}
      (controls : Controls document page schema element component prop) :
      Entered document page schema (.prop element.id prop)
        (PageView.ControlledSlot.entry document (PageView.nodesInside document page)
          (PageView.of document page schema).keys ⟨element, component, prop⟩)

theorem has_state_iff {key : StateKey} : HasState document page schema key ↔
    ∃ entry, Entered document page schema key entry := by
  constructor
  · intro state
    cases state with
    | slot held listed => exact ⟨_, .slot held listed⟩
    | node found child type => exact ⟨_, .node found child type⟩
    | prop controls => exact ⟨_, .prop controls⟩
  · intro entered
    obtain ⟨entry, entered⟩ := entered
    cases entered with
    | slot held listed => exact .slot held listed
    | node found child type => exact .node found child type
    | prop controls => exact .prop controls

theorem Entered.eq_of_eq (stored : document.Stored) {key other : StateKey}
    {left right : StateEntry} (first : Entered document page schema key left)
    (second : Entered document page schema other right) (same : key = other) : left = right := by
  cases first with
  | slot held listed =>
      cases second with
      | slot again value =>
          cases same
          rw [held] at again
          cases again
          rw [listed] at value
          cases value
          rfl
      | _ => cases same
  | @node left found =>
      cases second with
      | @node right present =>
          rw [eq_of_same_id found present (StateKey.node.inj same)]
      | _ => cases same
  | @prop left component prop controls =>
      cases second with
      | @prop right other prop further =>
          obtain ⟨id, rfl⟩ := StateKey.prop.inj same
          cases controls.shown.eq_of_same_id stored further.shown id
          have shows := controls.shows
          rw [further.shows] at shows
          cases shows
          rfl
      | _ => cases same

theorem mem_page_slots {key : StateKey} {entry : StateEntry} :
    (key, entry) ∈ PageView.pageSlots page ↔ ∃ slots slot value, page.kind.state? = some slots ∧
      slots.get? slot = some value ∧ key = .pageSlot page.id slot ∧ entry = .pageSlot value := by
  rw [PageView.pageSlots]
  split
  · rename_i slots held
    rw [List.mem_map]
    constructor
    · intro listed
      obtain ⟨⟨slot, value⟩, member, same⟩ := listed
      cases same
      exact ⟨slots, slot, value, held, slots.mem_entries_iff.1 member, rfl, rfl⟩
    · intro given
      obtain ⟨others, slot, value, again, listed, rfl, rfl⟩ := given
      rw [held] at again
      cases again
      exact ⟨(slot, value), slots.mem_entries_iff.2 listed, rfl⟩
  · rename_i absent
    constructor
    · intro listed
      exact absurd listed List.not_mem_nil
    · intro given
      obtain ⟨slots, _, _, held, _⟩ := given
      rw [absent] at held
      cases held

theorem mem_state_nodes (stored : document.Stored) {key : StateKey} {entry : StateEntry} :
    (key, entry) ∈ PageView.stateNodes document page ↔
      ∃ node, document.get? node.id = some node ∧ document.parentId? node.id = some page.id ∧
        node.type.isPageState = true ∧ key = .node node.id ∧ entry = .node node := by
  rw [PageView.stateNodes, List.mem_map]
  constructor
  · intro listed
    obtain ⟨node, member, same⟩ := listed
    cases same
    obtain ⟨child, type⟩ := List.mem_filter.1 member
    obtain ⟨found, step⟩ := (mem_children_iff stored).1 child
    exact ⟨node, found, step, type, rfl, rfl⟩
  · intro given
    obtain ⟨node, found, step, type, rfl, rfl⟩ := given
    refine ⟨node, List.mem_filter.2 ⟨?_, type⟩, rfl⟩
    exact (mem_children_iff stored).2 ⟨found, step⟩

theorem mem_controlled_slots (holds : document.HoldsPage page) {element : Node}
    {component prop : String} :
    ⟨element, component, prop⟩ ∈ PageView.controlledSlots document page schema ↔
      Controls document page schema element component prop := by
  rw [PageView.controlledSlots, List.mem_flatMap]
  constructor
  · intro listed
    obtain ⟨shown, member, inside⟩ := listed
    split at inside
    · rename_i known here
      obtain ⟨other, controlled, same⟩ := List.mem_map.1 inside
      cases same
      obtain ⟨shows, knows⟩ := Option.filter_eq_some_iff.1 here
      exact ⟨holds.mem_markup_iff.1 member, shows, knows, List.mem_eraseDups.1 controlled⟩
    · exact absurd inside List.not_mem_nil
  · intro controls
    refine ⟨element, holds.mem_markup_iff.2 controls.shown, ?_⟩
    have known : PageView.knownComponent? schema element = some component :=
      Option.filter_eq_some_iff.2 ⟨controls.shows, controls.known⟩
    rw [known]
    exact List.mem_map.2 ⟨prop, List.mem_eraseDups.2 controls.controlled, rfl⟩

theorem keys_of : (PageView.of document page schema).keys =
    (PageView.pageSlots page ++ PageView.stateNodes document page).map Prod.fst ++
      (PageView.controlledSlots document page schema).map PageView.ControlledSlot.key := by
  rw [PageView.keys, PageView.of]
  simp

theorem mem_entries_iff (holds : document.HoldsPage page) {key : StateKey} {entry : StateEntry} :
    (key, entry) ∈ (PageView.of document page schema).entries ↔
      Entered document page schema key entry := by
  have entries : (PageView.of document page schema).entries =
      (PageView.pageSlots page ++ PageView.stateNodes document page) ++
        (PageView.controlledSlots document page schema).map fun slot =>
          (slot.key, slot.entry document (PageView.nodesInside document page)
            (PageView.of document page schema).keys) := by
    rw [keys_of]
    rfl
  rw [entries, List.mem_append, List.mem_append, mem_page_slots, mem_state_nodes holds.stored,
    List.mem_map]
  constructor
  · intro listed
    rcases listed with (slot | node) | prop
    · obtain ⟨slots, slot, value, held, listed, rfl, rfl⟩ := slot
      exact .slot held listed
    · obtain ⟨node, found, child, type, rfl, rfl⟩ := node
      exact .node found child type
    · obtain ⟨slot, member, same⟩ := prop
      cases same
      exact .prop ((mem_controlled_slots holds).1 member)
  · intro entered
    cases entered with
    | slot held listed => exact Or.inl (Or.inl ⟨_, _, _, held, listed, rfl, rfl⟩)
    | node found child type => exact Or.inl (Or.inr ⟨_, found, child, type, rfl, rfl⟩)
    | prop controls => exact Or.inr ⟨_, (mem_controlled_slots holds).2 controls, rfl⟩

theorem mem_keys_iff (holds : document.HoldsPage page) {key : StateKey} :
    key ∈ (PageView.of document page schema).keys ↔ HasState document page schema key := by
  rw [has_state_iff, PageView.keys, List.mem_map]
  constructor
  · intro listed
    obtain ⟨⟨key, entry⟩, member, rfl⟩ := listed
    exact ⟨entry, (mem_entries_iff holds).1 member⟩
  · intro entered
    obtain ⟨entry, entered⟩ := entered
    exact ⟨(key, entry), (mem_entries_iff holds).2 entered, rfl⟩

theorem has_iff (holds : document.HoldsPage page) {key : StateKey} :
    (PageView.of document page schema).has key = true ↔ HasState document page schema key := by
  rw [PageView.has, List.contains_iff_mem, mem_keys_iff holds]

theorem entry_iff (holds : document.HoldsPage page) {key : StateKey} {entry : StateEntry} :
    (PageView.of document page schema).entryOf? key = some entry ↔
      Entered document page schema key entry := by
  have sound {other : StateEntry}
      (found : (PageView.of document page schema).entryOf? key = some other) :
      Entered document page schema key other := by
    rw [PageView.entryOf?, Option.map_eq_some_iff] at found
    obtain ⟨⟨held, value⟩, first, rfl⟩ := found
    have same : held = key := by simpa using List.find?_some first
    rw [← same]
    exact (mem_entries_iff holds).1 (List.mem_of_find?_eq_some first)
  constructor
  · exact sound
  · intro entered
    cases found : (PageView.of document page schema).entryOf? key with
    | some other => rw [(sound found).eq_of_eq holds.stored entered rfl]
    | none =>
        rw [PageView.entryOf?, Option.map_eq_none_iff, List.find?_eq_none] at found
        exact absurd (decide_eq_true rfl) (found _ ((mem_entries_iff holds).2 entered))

theorem HasState.suits (holds : document.HoldsPage page) {key : StateKey}
    (state : HasState document page schema key) :
    ∃ node, document.get? key.owner = some node ∧ document.OnPage page.id key.owner ∧
      key.Suits node.type := by
  cases state with
  | slot held listed => exact ⟨page, holds.found, ⟨0, .self⟩, holds.type⟩
  | node found child type => exact ⟨_, found, ⟨1, .single child⟩, type⟩
  | prop controls =>
      exact ⟨_, controls.shown.found holds.stored, controls.shown.on_page holds.stored,
        controls.shown.type⟩

theorem HasState.suits_holder (holds : document.HoldsPage page) {key : StateKey} {node : Node}
    (state : HasState document page schema key) (found : document.get? key.owner = some node) :
    key.Suits node.type := by
  obtain ⟨holder, present, _, suits⟩ := state.suits holds
  rw [found] at present
  cases present
  exact suits

theorem slot_key_iff (holds : document.HoldsPage page) {id : NodeId} {slot : String}
    {key : StateKey} :
    PageView.slotKey? document (PageView.nodesInside document page) id slot = some key ↔
      key.address = (id, slot) ∧ ∃ node, document.get? id = some node ∧
        document.OnPage page.id id ∧ key.Suits node.type := by
  have inside : (PageView.nodesInside document page).contains id = true ↔
      (∃ node, document.get? id = some node) ∧ document.OnPage page.id id := by
    rw [List.contains_iff_mem, holds.mem_nodes_inside_iff]
  have named : PageView.slotKey? document (PageView.nodesInside document page) id slot =
      if (PageView.nodesInside document page).contains id then
        (document.get? id).bind fun node => StateKey.ofType? node.type node.id slot
      else none := rfl
  rw [named]
  split
  · rename_i within
    rw [Option.bind_eq_some_iff]
    constructor
    · intro held
      obtain ⟨node, found, type⟩ := held
      rw [holds.stored found, StateKey.of_type_iff] at type
      exact ⟨type.1, node, found, (inside.1 within).2, type.2⟩
    · intro given
      obtain ⟨address, node, found, _, suits⟩ := given
      refine ⟨node, found, ?_⟩
      rw [holds.stored found]
      exact StateKey.of_type_iff.2 ⟨address, suits⟩
  · rename_i without
    constructor
    · intro absurd
      cases absurd
    · intro given
      obtain ⟨_, node, found, around, _⟩ := given
      exact absurd (inside.2 ⟨⟨node, found⟩, around⟩) without

theorem target_iff (holds : document.HoldsPage page) {id : NodeId} {slot : String}
    {key : StateKey} :
    (PageView.of document page schema).target? id slot = some key ↔
      HasState document page schema key ∧ key.address = (id, slot) := by
  rw [PageView.target?, Option.filter_eq_some_iff, has_iff holds]
  constructor
  · intro named
    exact ⟨named.2, ((slot_key_iff holds).1 named.1).1⟩
  · intro given
    obtain ⟨state, address⟩ := given
    refine ⟨(slot_key_iff holds).2 ⟨address, ?_⟩, state⟩
    have owner : key.owner = id := by rw [← key.address_owner, address]
    rw [← owner]
    exact state.suits holds

theorem slot_on_iff (holds : document.HoldsPage page) {id : NodeId} {key : StateKey}
    {segments path : List PathSegment} :
    (PageView.of document page schema).slotOn? id segments = some (key, path) ↔
      HasState document page schema key ∧
        ∃ slot, key.address = (id, slot) ∧ segments = .field slot :: path := by
  cases segments with
  | nil => simp [PageView.slotOn?]
  | cons segment rest =>
      cases segment with
      | field slot =>
          rw [PageView.slotOn?, Option.map_eq_some_iff]
          constructor
          · intro named
            obtain ⟨target, names, same⟩ := named
            cases same
            obtain ⟨state, address⟩ := (target_iff holds).1 names
            exact ⟨state, slot, address, rfl⟩
          · intro given
            obtain ⟨state, _, address, same⟩ := given
            cases same
            exact ⟨key, (target_iff holds).2 ⟨state, address⟩, rfl⟩
      | index number => simp [PageView.slotOn?]
      | key text => simp [PageView.slotOn?]

theorem refers_of_path_from (holds : document.HoldsPage page) {node : Node}
    (found : document.get? node.id = some node) (around : document.OnPage page.id node.id)
    {key : StateKey} {segments path : List PathSegment}
    (named : (PageView.of document page schema).pathFrom? node segments = some (key, path)) :
    Refers document page schema ⟨node.name, segments⟩ key path := by
  rw [PageView.pathFrom?] at named
  have standing (type : node.type.isPageState = true)
      (same : some (StateKey.node node.id, segments) = some (key, path)) :
      Refers document page schema ⟨node.name, segments⟩ key path := by
    cases same
    exact .node found (.node found (holds.parent_of_page_state around found type) type)
  have slotted (type : node.type.isPageState = false)
      (same : (PageView.of document page schema).slotOn? node.id segments = some (key, path)) :
      Refers document page schema ⟨node.name, segments⟩ key path := by
    obtain ⟨state, slot, address, rfl⟩ := (slot_on_iff holds).1 same
    have owner : key.owner = node.id := by rw [← key.address_owner, address]
    rw [← owner] at found
    have pair := (state.suits_holder holds found).pair_iff.2 type
    rw [StateKey.address_of_pair pair] at address
    obtain ⟨_, rfl⟩ := Prod.mk.inj address
    exact .pair found pair state
  split at named
  · exact standing (by simp [*, NodeType.isPageState]) named
  · exact standing (by simp [*, NodeType.isPageState]) named
  · exact standing (by simp [*, NodeType.isPageState]) named
  · exact slotted (by simp [*, NodeType.isPageState]) named
  · exact slotted (by simp [*, NodeType.isPageState]) named
  · cases named

theorem path_from_state_node (view : PageView) {node : Node}
    (type : node.type.isPageState = true) (segments : List PathSegment) :
    view.pathFrom? node segments = some (.node node.id, segments) := by
  rw [PageView.pathFrom?]
  revert type
  cases node.type with
  | derivedState | queryState | fetchedState => exact fun _ => rfl
  | application | theme | api | page | element => simp [NodeType.isPageState]

theorem path_from_holder (view : PageView) {node : Node} {key : StateKey}
    (pair : PageView.isPair key = true) (suits : key.Suits node.type)
    (segments : List PathSegment) :
    view.pathFrom? node segments = view.slotOn? node.id segments := by
  rw [PageView.pathFrom?]
  cases key with
  | node id => cases pair
  | pageSlot owner slot =>
      have type : node.type = .page := suits
      rw [type]
  | prop owner name =>
      have type : node.type = .element := suits
      rw [type]

theorem path_from_of_refers (holds : document.HoldsPage page) {node : Node}
    (found : document.get? node.id = some node) {key : StateKey}
    {segments path : List PathSegment}
    (refers : Refers document page schema ⟨node.name, segments⟩ key path) :
    (PageView.of document page schema).pathFrom? node segments = some (key, path) := by
  generalize same : Reference.mk node.name segments = reference at refers
  cases refers with
  | @node other path present state =>
      obtain ⟨name, rfl⟩ := Reference.mk.inj same
      have own : node.id = other.id := holds.valid.named found present name
      rw [own, present] at found
      cases found
      exact path_from_state_node _ (state.suits_holder holds present) segments
  | @pair key holder path present pair state =>
      obtain ⟨name, rfl⟩ := Reference.mk.inj same
      have own : node.id = key.owner := holds.valid.named found present name
      rw [own, present] at found
      cases found
      rw [path_from_holder _ pair (state.suits_holder holds present), own]
      apply (slot_on_iff holds).2
      exact ⟨state, key.second, StateKey.address_of_pair pair, rfl⟩

theorem Refers.holder (holds : document.HoldsPage page) {reference : Reference}
    {key : StateKey} {path : List PathSegment}
    (refers : Refers document page schema reference key path) :
    ∃ node, document.get? node.id = some node ∧ document.OnPage page.id node.id ∧
      node.name = reference.root := by
  cases refers with
  | node found state =>
      obtain ⟨_, _, around, _⟩ := state.suits holds
      exact ⟨_, found, around, rfl⟩
  | @pair key holder path found pair state =>
      obtain ⟨_, _, around, _⟩ := state.suits holds
      have own : holder.id = key.owner := holds.stored found
      rw [← own] at found around
      exact ⟨holder, found, around, rfl⟩

theorem reference_target_iff (holds : document.HoldsPage page) {reference : Reference}
    {key : StateKey} {path : List PathSegment} :
    (PageView.of document page schema).referenceTarget? reference = some (key, path) ↔
      Refers document page schema reference key path := by
  rw [PageView.reference_target_eq, Option.bind_eq_some_iff]
  constructor
  · intro named
    obtain ⟨node, listed, named⟩ := named
    obtain ⟨present, name⟩ := (node_named_iff holds.valid).1 listed
    split at named
    · rename_i within
      have around := (holds.mem_nodes_inside_iff.1 (List.contains_iff_mem.1 within)).2
      have refers :=
        refers_of_path_from holds ((mem_all_nodes_iff holds.stored).1 present) around named
      rw [name] at refers
      exact refers
    · cases named
  · intro refers
    obtain ⟨node, found, around, name⟩ := refers.holder holds
    have listed := (node_named_iff holds.valid).2 ⟨(mem_all_nodes_iff holds.stored).2 found, name⟩
    have within : (PageView.of document page schema).inside.contains node.id = true :=
      List.contains_iff_mem.2 (holds.mem_nodes_inside_iff.2 ⟨⟨node, found⟩, around⟩)
    refine ⟨node, listed, ?_⟩
    rw [if_pos within]
    apply path_from_of_refers holds found
    rw [name]
    exact refers

theorem mem_value_reads_iff (holds : document.HoldsPage page) {value : Bindable}
    {key : StateKey} :
    key ∈ (PageView.of document page schema).valueReads value ↔
      ValueReads document page schema value key := by
  cases value with
  | const _ | script _ | secret _ =>
      constructor
      · exact fun listed => absurd listed List.not_mem_nil
      · intro reads
        cases reads
  | binding id slot =>
      rw [PageView.valueReads, Option.mem_toList, target_iff holds]
      constructor
      · intro named
        exact .binding named.1 named.2
      · intro reads
        cases reads with
        | binding state address => exact ⟨state, address⟩
  | bound text format =>
      rw [PageView.valueReads, List.mem_filterMap]
      constructor
      · intro listed
        obtain ⟨reference, written, named⟩ := listed
        obtain ⟨⟨target, path⟩, refers, rfl⟩ := Option.map_eq_some_iff.1 named
        exact .interpolation written ((reference_target_iff holds).1 refers)
      · intro reads
        cases reads with
        | interpolation written refers =>
            refine ⟨_, written, ?_⟩
            rw [(reference_target_iff holds).2 refers]
            rfl

open PageView (ControlledSlot)

theorem value_eq_some_iff {slot : ControlledSlot} {value : Bindable} :
    slot.value? = some value ↔ slot.element.Gives slot.prop value := by
  rw [ControlledSlot.value?, Option.bind_eq_some_iff, Node.Gives]

theorem other_pair_iff (holds : document.HoldsPage page) {own target : StateKey} {id : NodeId}
    {slot : String} :
    (PageView.slotKey? document (PageView.nodesInside document page) id slot).filter
        (fun key => PageView.isPair key && (PageView.of document page schema).keys.contains key &&
          key ≠ own) = some target ↔
      HasState document page schema target ∧ PageView.isPair target = true ∧
        target.address = (id, slot) ∧ target ≠ own := by
  rw [Option.filter_eq_some_iff, Bool.and_eq_true, Bool.and_eq_true, List.contains_iff_mem,
    mem_keys_iff holds, decide_eq_true_eq]
  constructor
  · intro named
    obtain ⟨key, ⟨pair, state⟩, other⟩ := named
    exact ⟨state, pair, ((slot_key_iff holds).1 key).1, other⟩
  · intro given
    obtain ⟨state, pair, address, other⟩ := given
    obtain ⟨names, _⟩ := Option.filter_eq_some_iff.1 ((target_iff holds).2 ⟨state, address⟩)
    exact ⟨names, ⟨pair, state⟩, other⟩

theorem shares_iff (holds : document.HoldsPage page) {key target : StateKey} :
    Entered document page schema key (.shared target) ↔
      Shares document page schema key target := by
  constructor
  · intro entered
    generalize same : StateEntry.shared target = entry at entered
    cases entered with
    | slot held listed => cases same
    | node found child type => cases same
    | @prop element component prop controls =>
        rw [ControlledSlot.entry] at same
        split at same
        · rename_i id slot given
          split at same
          · rename_i found
            cases same
            obtain ⟨state, pair, address, other⟩ := (other_pair_iff holds).1 found
            exact .bound controls (value_eq_some_iff.1 given) state pair address other
          · cases same
        · cases same
        · cases same
  · intro shares
    cases shares with
    | @bound element component prop target id slot controls given state pair address other =>
        have entered := Entered.prop controls
        have value : (ControlledSlot.mk element component prop).value? =
            some (.binding id slot) := value_eq_some_iff.2 given
        rw [ControlledSlot.entry, value] at entered
        have differs : target ≠ ControlledSlot.key ⟨element, component, prop⟩ := other
        dsimp only at entered
        rw [(other_pair_iff holds).2 ⟨state, pair, address, differs⟩] at entered
        exact entered

theorem Shares.unique (holds : document.HoldsPage page) {key left right : StateKey}
    (first : Shares document page schema key left)
    (second : Shares document page schema key right) : left = right :=
  StateEntry.shared.inj
    (((shares_iff holds).2 first).eq_of_eq holds.stored ((shares_iff holds).2 second) rfl)

/-- A controlled prop shares a pair, is computed, or owns a pair and reads nothing. -/
theorem slot_entry_cases {element : Node} {component prop : String} :
    (∃ target, ControlledSlot.entry document (PageView.nodesInside document page)
        (PageView.of document page schema).keys ⟨element, component, prop⟩ = .shared target) ∨
      (∃ value, ControlledSlot.entry document (PageView.nodesInside document page)
          (PageView.of document page schema).keys ⟨element, component, prop⟩ =
            .computed element prop value ∧ element.Gives prop value) ∨
      ∃ given, ControlledSlot.entry document (PageView.nodesInside document page)
          (PageView.of document page schema).keys ⟨element, component, prop⟩ =
            .owned element component prop given ∧
        ∀ value target, element.Gives prop value →
          ¬ValueReads document page schema value target := by
  rw [ControlledSlot.entry]
  have only {value other : Bindable} {target : StateKey}
      (given : (ControlledSlot.mk element component prop).value? = some value)
      (gives : element.Gives prop other) (reads : ValueReads document page schema other target) :
      ValueReads document page schema value target := by
    have same : (ControlledSlot.mk element component prop).value? = some other :=
      value_eq_some_iff.2 gives
    rw [given] at same
    cases same
    exact reads
  cases given : (ControlledSlot.mk element component prop).value? with
  | none =>
      refine Or.inr (Or.inr ⟨none, rfl, ?_⟩)
      intro value target gives _
      have same : (ControlledSlot.mk element component prop).value? = some value :=
        value_eq_some_iff.2 gives
      rw [given] at same
      cases same
  | some value =>
      cases value with
      | binding id slot =>
          dsimp only
          split
          · exact Or.inl ⟨_, rfl⟩
          · exact Or.inr (Or.inl ⟨_, rfl, value_eq_some_iff.1 given⟩)
      | bound text format => exact Or.inr (Or.inl ⟨_, rfl, value_eq_some_iff.1 given⟩)
      | const _ | script _ | secret _ =>
          refine Or.inr (Or.inr ⟨_, rfl, fun value target gives reads => ?_⟩)
          cases only given gives reads

theorem mem_params_of_iff {node : Node} {name : String} {value : Bindable} :
    (name, value) ∈ PageView.paramsOf node ↔
      ∃ params, node.kind.params? = some params ∧ params.get? name = some value := by
  rw [PageView.paramsOf]
  split
  · rename_i params held
    rw [params.mem_entries_iff, held]
    simp
  · rename_i absent
    simp [absent]

theorem Reads.of_node {node : Node} {target : StateKey}
    (found : document.get? node.id = some node)
    (reads : Reads document page schema (.node node.id) target) :
    ∃ params name value, node.kind.params? = some params ∧ params.get? name = some value ∧
      ValueReads document page schema value target := by
  generalize same : StateKey.node node.id = key at reads
  cases reads with
  | shared shares =>
      cases shares
      cases same
  | @param other params name value target present state held given reads =>
      cases eq_of_same_id found present (StateKey.node.inj same)
      exact ⟨params, name, value, held, given, reads⟩
  | computed => cases same

theorem mem_node_reads_iff (holds : document.HoldsPage page) {node : Node} {target : StateKey}
    (state : HasState document page schema (.node node.id))
    (found : document.get? node.id = some node) :
    target ∈ (PageView.of document page schema).entryReads (.node node) ↔
      Reads document page schema (.node node.id) target := by
  rw [PageView.entryReads, List.mem_flatMap]
  constructor
  · intro listed
    obtain ⟨⟨name, value⟩, member, reads⟩ := listed
    obtain ⟨params, held, given⟩ := mem_params_of_iff.1 member
    exact .param found state held given ((mem_value_reads_iff holds).1 reads)
  · intro reads
    obtain ⟨params, name, value, held, listed, reads⟩ := reads.of_node found
    exact ⟨(name, value), mem_params_of_iff.2 ⟨params, held, listed⟩,
      (mem_value_reads_iff holds).2 reads⟩

theorem Entered.not_shared (holds : document.HoldsPage page) {key : StateKey}
    {entry : StateEntry} (entered : Entered document page schema key entry)
    (owns : ∀ target, entry ≠ .shared target) :
    ¬∃ target, Shares document page schema key target := by
  intro shared
  obtain ⟨target, shares⟩ := shared
  exact owns target (entered.eq_of_eq holds.stored ((shares_iff holds).2 shares) rfl)

theorem Reads.of_slot {key target : StateKey} {slot : String}
    (reads : Reads document page schema key target) : key ≠ .pageSlot page.id slot := by
  intro same
  cases reads with
  | shared shares =>
      cases shares
      cases same
  | param => cases same
  | computed => cases same

theorem Reads.of_prop (holds : document.HoldsPage page) {element : Node} {target : StateKey}
    {component prop : String} (controls : Controls document page schema element component prop)
    (reads : Reads document page schema (.prop element.id prop) target) :
    Shares document page schema (.prop element.id prop) target ∨
      (¬∃ pair, Shares document page schema (.prop element.id prop) pair) ∧
        ∃ value, element.Gives prop value ∧ ValueReads document page schema value target := by
  generalize same : StateKey.prop element.id prop = key at reads
  cases reads with
  | shared shares => exact Or.inl shares
  | param => cases same
  | @computed other _ name value target further given unshared reads =>
      obtain ⟨id, rfl⟩ := StateKey.prop.inj same
      cases controls.shown.eq_of_same_id holds.stored further.shown id
      exact Or.inr ⟨unshared, value, given, reads⟩

theorem mem_prop_reads_iff (holds : document.HoldsPage page) {element : Node}
    {component prop : String} (controls : Controls document page schema element component prop)
    {target : StateKey} :
    target ∈ (PageView.of document page schema).entryReads
        (ControlledSlot.entry document (PageView.nodesInside document page)
          (PageView.of document page schema).keys ⟨element, component, prop⟩) ↔
      Reads document page schema (.prop element.id prop) target := by
  have entered := Entered.prop controls
  rcases @slot_entry_cases document page schema element component prop with
    shared | computed | owned
  · obtain ⟨pair, entry⟩ := shared
    rw [entry] at entered ⊢
    have shares := (shares_iff holds).1 entered
    rw [PageView.entryReads, List.mem_singleton]
    constructor
    · exact fun same => same ▸ .shared shares
    · intro reads
      rcases reads.of_prop holds controls with again | read
      · exact again.unique holds shares
      · exact absurd ⟨pair, shares⟩ read.1
  · obtain ⟨value, entry, given⟩ := computed
    rw [entry] at entered ⊢
    have unshared := entered.not_shared holds fun target same => by cases same
    rw [PageView.entryReads, mem_value_reads_iff holds]
    constructor
    · exact .computed controls given unshared
    · intro reads
      rcases reads.of_prop holds controls with shares | read
      · exact absurd ⟨target, shares⟩ unshared
      · obtain ⟨_, other, gives, reads⟩ := read
        rw [given.unique gives]
        exact reads
  · obtain ⟨given, entry, silent⟩ := owned
    rw [entry] at entered ⊢
    have unshared := entered.not_shared holds fun target same => by cases same
    constructor
    · exact fun member => absurd member List.not_mem_nil
    · intro reads
      rcases reads.of_prop holds controls with shares | read
      · exact absurd ⟨target, shares⟩ unshared
      · obtain ⟨_, value, gives, reads⟩ := read
        exact absurd reads (silent value target gives)

/-- Entries read what the state of the page reads. -/
theorem mem_entry_reads_iff (holds : document.HoldsPage page) {key target : StateKey}
    {entry : StateEntry} (entered : Entered document page schema key entry) :
    target ∈ (PageView.of document page schema).entryReads entry ↔
      Reads document page schema key target := by
  cases entered with
  | slot held listed =>
      constructor
      · exact fun member => absurd member List.not_mem_nil
      · exact fun reads => absurd rfl reads.of_slot
  | node found child type => exact mem_node_reads_iff holds (.node found child type) found
  | prop controls => exact mem_prop_reads_iff holds controls

end Document

end PageBuilder
