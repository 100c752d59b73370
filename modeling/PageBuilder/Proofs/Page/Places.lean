import PageBuilder.Proofs.Page.Once

/-!
Where a page looks at values: the params of its state nodes, controlled props that are bound or
given as scripts, and what it shows. Entries and shown values are told apart by the state at a
place, so no place is looked at twice.
-/

namespace PageBuilder

/-- Whether a value says where it comes from, so that a controlled prop can be computed from it. -/
def Bindable.isBound : Bindable → Bool
  | .binding _ _ => true
  | .bound _ _ => true
  | _ => false

/-- Where a page may have something to warn of. -/
inductive ValuePlace where
  | param (node : Node) (name : String) (value : Bindable)
  /-- A state node, apart from its params. -/
  | stateNode (node : Node)
  | computed (element : Node) (prop : String) (value : Bindable)
  /-- A script as the value of a controlled prop, which owns its pair. -/
  | owned (element : Node) (prop script : String)
  | shown (element : Node) (prop : String) (value : Bindable)

def ValuePlace.key : ValuePlace → StateKey
  | .param node _ _ => .node node.id
  | .stateNode node => .node node.id
  | .computed element prop _ => .prop element.id prop
  | .owned element prop _ => .prop element.id prop
  | .shown element prop _ => .prop element.id prop

namespace PageView

def entryPlaces : StateEntry → List ValuePlace
  | .node node =>
      ((paramsOf node).map fun param => .param node param.1 param.2) ++ [.stateNode node]
  | .owned element _ prop (some (.script text)) => [.owned element prop text]
  | .computed element prop value => [.computed element prop value]
  | _ => []

def statePlaces (view : PageView) : List ValuePlace :=
  view.entries.flatMap fun entry => entryPlaces entry.2

def shownPlaces (view : PageView) : List ValuePlace :=
  view.shownValues.map fun shown => .shown shown.1 shown.2.1 shown.2.2

end PageView

namespace Document

section Looked

variable (document : Document) (page : Node) (schema : PropSchema)

structure IsStateNode (node : Node) : Prop where
  found : document.get? node.id = some node
  child : document.parentId? node.id = some page.id
  type : node.type.isPageState = true

/-- What a page resolves: the params of its state nodes, the controlled props that are bound and
share no pair or else given as a script, and the values that it shows. -/
inductive IsPlace : ValuePlace → Prop
  | param {node : Node} {params : BindableMap} {name : String} {value : Bindable}
      (state : IsStateNode document page node) (held : node.kind.params? = some params)
      (given : params.get? name = some value) : IsPlace (.param node name value)
  | stateNode {node : Node} (state : IsStateNode document page node) : IsPlace (.stateNode node)
  | computed {element : Node} {component prop : String} {value : Bindable}
      (controls : Controls document page schema element component prop)
      (given : element.Gives prop value) (bound : value.isBound = true)
      (unshared : ¬∃ target, Shares document page schema (.prop element.id prop) target) :
      IsPlace (.computed element prop value)
  | owned {element : Node} {component prop script : String}
      (controls : Controls document page schema element component prop)
      (given : element.Gives prop (.script script)) : IsPlace (.owned element prop script)
  | shown {element : Node} {prop : String} {value : Bindable}
      (shows : ShowsValue document page schema element prop value) :
      IsPlace (.shown element prop value)

end Looked

variable {document : Document} {page : Node} {schema : PropSchema}

open PageView (ControlledSlot)

theorem slot_entry_of_script {element : Node} {component prop script : String}
    (given : element.Gives prop (.script script)) :
    ControlledSlot.entry document (PageView.nodesInside document page)
      (PageView.of document page schema).keys ⟨element, component, prop⟩ =
        .owned element component prop (some (.script script)) := by
  rw [ControlledSlot.entry, value_eq_some_iff.2 given]

theorem slot_entry_of_bound (holds : document.HoldsPage page) {element : Node}
    {component prop : String} {value : Bindable}
    (controls : Controls document page schema element component prop)
    (given : element.Gives prop value) (bound : value.isBound = true)
    (unshared : ¬∃ target, Shares document page schema (.prop element.id prop) target) :
    ControlledSlot.entry document (PageView.nodesInside document page)
      (PageView.of document page schema).keys ⟨element, component, prop⟩ =
        .computed element prop value := by
  have entered := Entered.prop controls
  have held : (ControlledSlot.mk element component prop).value? = some value :=
    value_eq_some_iff.2 given
  rw [ControlledSlot.entry, held] at entered ⊢
  cases value with
  | const | script | secret => cases bound
  | bound text format => rfl
  | binding id slot =>
      dsimp only at entered ⊢
      split at entered
      · exact absurd ⟨_, (shares_iff holds).1 entered⟩ unshared
      · rfl

theorem place_of_slot (holds : document.HoldsPage page) {element : Node} {component prop : String}
    (controls : Controls document page schema element component prop) {place : ValuePlace}
    (member : place ∈ PageView.entryPlaces (ControlledSlot.entry document
      (PageView.nodesInside document page) (PageView.of document page schema).keys
      ⟨element, component, prop⟩)) :
    IsPlace document page schema place ∧ place.key = .prop element.id prop := by
  have entered := Entered.prop controls
  have computed {value : Bindable} (given : element.Gives prop value) (bound : value.isBound = true)
      (entered : Entered document page schema (.prop element.id prop)
        (.computed element prop value)) :
      IsPlace document page schema (.computed element prop value) :=
    .computed controls given bound (entered.not_shared holds fun target same => by cases same)
  rw [ControlledSlot.entry] at member entered
  cases held : (ControlledSlot.mk element component prop).value? with
  | none =>
      rw [held] at member
      cases member
  | some value =>
      have given : element.Gives prop value := value_eq_some_iff.1 held
      rw [held] at member entered
      cases value with
      | const | secret => cases member
      | script script =>
          rw [List.mem_singleton.1 member]
          exact ⟨.owned controls given, rfl⟩
      | bound text format =>
          rw [List.mem_singleton.1 member]
          exact ⟨computed given rfl entered, rfl⟩
      | binding id slot =>
          dsimp only at member entered
          split at member
          · cases member
          · rename_i other
            rw [other] at entered
            rw [List.mem_singleton.1 member]
            exact ⟨computed given rfl entered, rfl⟩

theorem place_of_node {node : Node} (state : IsStateNode document page node) {place : ValuePlace}
    (member : place ∈ PageView.entryPlaces (.node node)) :
    IsPlace document page schema place ∧ place.key = .node node.id := by
  rcases List.mem_append.1 member with listed | last
  · obtain ⟨⟨name, value⟩, inside, rfl⟩ := List.mem_map.1 listed
    obtain ⟨params, held, given⟩ := mem_params_of_iff.1 inside
    exact ⟨.param state held given, rfl⟩
  · rw [List.mem_singleton.1 last]
    exact ⟨.stateNode state, rfl⟩

theorem place_of_entry (holds : document.HoldsPage page) {key : StateKey} {entry : StateEntry}
    (entered : Entered document page schema key entry) {place : ValuePlace}
    (member : place ∈ PageView.entryPlaces entry) :
    IsPlace document page schema place ∧ place.key = key := by
  cases entered with
  | slot held listed => cases member
  | node found child type => exact place_of_node ⟨found, child, type⟩ member
  | prop controls => exact place_of_slot holds controls member

theorem mem_state_places_iff (holds : document.HoldsPage page) {place : ValuePlace} :
    place ∈ (PageView.of document page schema).statePlaces ↔
      IsPlace document page schema place ∧ HasState document page schema place.key := by
  rw [PageView.statePlaces, List.mem_flatMap]
  constructor
  · rintro ⟨⟨key, entry⟩, listed, member⟩
    have entered := (mem_entries_iff holds).1 listed
    obtain ⟨isPlace, rfl⟩ := place_of_entry holds entered member
    exact ⟨isPlace, has_state_iff.2 ⟨entry, entered⟩⟩
  · rintro ⟨isPlace, state⟩
    cases isPlace with
    | @param node params name value here held given =>
        refine ⟨_, (mem_entries_iff holds).2 (.node here.found here.child here.type), ?_⟩
        apply List.mem_append_left
        exact List.mem_map.2 ⟨(name, value), mem_params_of_iff.2 ⟨params, held, given⟩, rfl⟩
    | stateNode here =>
        refine ⟨_, (mem_entries_iff holds).2 (.node here.found here.child here.type), ?_⟩
        exact List.mem_append_right _ List.mem_cons_self
    | computed controls given bound unshared =>
        refine ⟨_, (mem_entries_iff holds).2 (.prop controls), ?_⟩
        rw [slot_entry_of_bound holds controls given bound unshared]
        exact List.mem_cons_self
    | owned controls given =>
        refine ⟨_, (mem_entries_iff holds).2 (.prop controls), ?_⟩
        rw [slot_entry_of_script given]
        exact List.mem_cons_self
    | shown shows => exact absurd state shows.stateless

theorem mem_shown_places_iff (holds : document.HoldsPage page) {place : ValuePlace} :
    place ∈ (PageView.of document page schema).shownPlaces ↔
      IsPlace document page schema place ∧ ¬HasState document page schema place.key := by
  rw [PageView.shownPlaces, List.mem_map]
  constructor
  · rintro ⟨⟨element, prop, value⟩, listed, rfl⟩
    have shows := (mem_shown_values_iff holds).1 listed
    exact ⟨.shown shows, shows.stateless⟩
  · rintro ⟨isPlace, stateless⟩
    cases isPlace with
    | param state | stateNode state =>
        exact absurd (HasState.node state.found state.child state.type) stateless
    | computed controls | owned controls => exact absurd (HasState.prop controls) stateless
    | shown shows => exact ⟨_, (mem_shown_values_iff holds).2 shows, rfl⟩

theorem entry_places_nodup (entry : StateEntry) : (PageView.entryPlaces entry).Nodup := by
  cases entry with
  | pageSlot | shared => exact List.nodup_nil
  | computed => exact List.nodup_singleton _
  | node node =>
      apply List.nodup_append.2
      refine ⟨(param_names_nodup node).of_map.map ?_, List.nodup_singleton _, ?_⟩
      · intro left right same
        exact Prod.ext (ValuePlace.param.inj same).2.1 (ValuePlace.param.inj same).2.2
      · rintro place listed other last rfl
        obtain ⟨param, _, rfl⟩ := List.mem_map.1 listed
        cases List.mem_singleton.1 last
  | owned element component prop value =>
      cases value with
      | none => exact List.nodup_nil
      | some value =>
          cases value with
          | script => exact List.nodup_singleton _
          | const | binding | bound | secret => exact List.nodup_nil

theorem places_nodup (holds : document.HoldsPage page) :
    ((PageView.of document page schema).statePlaces ++
      (PageView.of document page schema).shownPlaces).Nodup := by
  apply List.nodup_append.2
  refine ⟨?_, (shown_values_nodup holds).map ?_, ?_⟩
  -- Places of one entry tell its key, and the keys of a page differ.
  · apply nodup_of_parts (keys_nodup holds).of_map
    · exact fun entry _ => entry_places_nodup entry.2
    · intro left first right second place here there
      obtain ⟨_, own⟩ := place_of_entry holds ((mem_entries_iff holds).1 first) here
      obtain ⟨_, again⟩ := place_of_entry holds ((mem_entries_iff holds).1 second) there
      exact List.inj_on_of_nodup_map (keys_nodup holds) first second (own.symm.trans again)
  · intro left right same
    obtain ⟨element, prop, value⟩ := ValuePlace.shown.inj same
    exact Prod.ext element (Prod.ext prop value)
  · rintro place state other shown rfl
    exact ((mem_shown_places_iff holds).1 shown).2 ((mem_state_places_iff holds).1 state).2

theorem mem_places_iff (holds : document.HoldsPage page) {place : ValuePlace} :
    place ∈ (PageView.of document page schema).statePlaces ++
      (PageView.of document page schema).shownPlaces ↔ IsPlace document page schema place := by
  rw [List.mem_append, mem_state_places_iff holds, mem_shown_places_iff holds, ← and_or_left]
  exact and_iff_left (Classical.em _)

end Document

end PageBuilder
