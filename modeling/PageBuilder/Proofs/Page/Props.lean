import PageBuilder.Proofs.Page.Bindings

/-!
The props of the elements that a page shows. A controlled prop is a pair; any other prop shows the
value that its element gives to it.
-/

namespace PageBuilder.Document

section Values

variable (document : Document) (page : Node) (schema : PropSchema)

def KnownElement (element : Node) : Prop :=
  ∃ component, element.component? = some component ∧ schema.knows component = true

/-- The page shows an element of a known component, which gives a value to a prop without state. -/
structure ShowsValue (element : Node) (prop : String) (value : Bindable) : Prop where
  shown : document.Shown page.id element
  known : KnownElement schema element
  given : element.Gives prop value
  stateless : ¬HasState document page schema (.prop element.id prop)

end Values

variable {document : Document} {page : Node} {schema : PropSchema} {element : Node} {prop : String}

theorem schema_of : (PageView.of document page schema).schema = schema := rfl

theorem known_component_iff {component : String} :
    PageView.knownComponent? schema element = some component ↔
      element.component? = some component ∧ schema.knows component = true :=
  Option.filter_eq_some_iff

theorem prop_state_iff (holds : document.HoldsPage page)
    (shown : document.Shown page.id element) :
    HasState document page schema (.prop element.id prop) ↔
      ∃ component, Controls document page schema element component prop := by
  constructor
  · intro state
    generalize same : StateKey.prop element.id prop = key at state
    cases state with
    | slot | node => cases same
    | @prop other component _ controls =>
        obtain ⟨id, rfl⟩ := StateKey.prop.inj same
        cases shown.eq_of_same_id holds.stored controls.shown id
        exact ⟨component, controls⟩
  · rintro ⟨component, controls⟩
    exact .prop controls

theorem mem_shown_values_iff (holds : document.HoldsPage page) {value : Bindable} :
    (element, prop, value) ∈ (PageView.of document page schema).shownValues ↔
      ShowsValue document page schema element prop value := by
  rw [PageView.shownValues, List.mem_flatMap]
  constructor
  · rintro ⟨top, member, inside⟩
    split at inside
    · cases inside
    · rename_i component known
      obtain ⟨entry, listed, same⟩ := List.mem_map.1 inside
      cases same
      obtain ⟨given, stateless⟩ := List.mem_filter.1 listed
      refine ⟨holds.mem_markup_iff.1 member, ⟨component, known_component_iff.1 known⟩,
        mem_given_props_iff.1 given, ?_⟩
      rw [← has_iff holds]
      simpa using stateless
  · intro shows
    obtain ⟨component, known⟩ := shows.known
    refine ⟨element, holds.mem_markup_iff.2 shows.shown, ?_⟩
    rw [schema_of, known_component_iff.2 known]
    refine List.mem_map.2 ⟨(prop, value), List.mem_filter.2 ⟨?_, ?_⟩, rfl⟩
    · exact mem_given_props_iff.2 shows.given
    · have stateless := shows.stateless
      rw [← has_iff holds] at stateless
      simpa using stateless

theorem props_of_shown (holds : document.HoldsPage page) (names : PageNames)
    (shown : document.Shown page.id element) :
    ((PageView.of document page schema).props names).get? element.id =
      some ((PageView.of document page schema).elementProps names element) := by
  apply (SortedMap.get_of_list_iff _).2
  · exact List.mem_map.2 ⟨element, holds.mem_markup_iff.2 shown, rfl⟩
  · intro id left right first second
    obtain ⟨one, member, same⟩ := List.mem_map.1 first
    obtain ⟨other, inside, again⟩ := List.mem_map.1 second
    rw [Prod.mk.injEq] at same again
    have shown := holds.mem_markup_iff.1 member
    cases shown.eq_of_same_id holds.stored (holds.mem_markup_iff.1 inside)
      (same.1.trans again.1.symm)
    exact same.2.symm.trans again.2

theorem get_given_props_iff (names : PageNames) {resolved : ResolvedProp} :
    (SortedMap.ofList ((PageView.givenProps element).map
      ((PageView.of document page schema).givenProp names element))).get? prop = some resolved ↔
        ∃ value, element.Gives prop value ∧
          ((PageView.of document page schema).givenProp names element (prop, value)).2 =
            resolved := by
  have unique (name : String) (left right : ResolvedProp)
      (first : (name, left) ∈ (PageView.givenProps element).map
        ((PageView.of document page schema).givenProp names element))
      (second : (name, right) ∈ (PageView.givenProps element).map
        ((PageView.of document page schema).givenProp names element)) : left = right := by
    obtain ⟨⟨given, value⟩, listed, same⟩ := List.mem_map.1 first
    obtain ⟨⟨again, other⟩, inside, equal⟩ := List.mem_map.1 second
    obtain ⟨rfl, rfl⟩ := Prod.mk.inj same
    obtain ⟨rfl, rfl⟩ := Prod.mk.inj equal
    have gives : element.Gives again value := mem_given_props_iff.1 listed
    have others : element.Gives again other := mem_given_props_iff.1 inside
    rw [gives.unique others]
  rw [SortedMap.get_of_list_iff unique, List.mem_map]
  constructor
  · rintro ⟨⟨name, value⟩, listed, same⟩
    obtain ⟨rfl, rfl⟩ := Prod.mk.inj same
    exact ⟨value, mem_given_props_iff.1 listed, rfl⟩
  · rintro ⟨value, given, rfl⟩
    exact ⟨(prop, value), mem_given_props_iff.2 given, rfl⟩

theorem element_props_unknown (names : PageNames) (unknown : ¬KnownElement schema element) :
    (PageView.of document page schema).elementProps names element = .empty := by
  rw [PageView.elementProps, schema_of]
  cases known : PageView.knownComponent? schema element with
  | none => rfl
  | some component => exact absurd ⟨component, known_component_iff.1 known⟩ unknown

theorem get_element_props (names : PageNames) {component : String}
    (shows : element.component? = some component) (knows : schema.knows component = true)
    (prop : String) :
    ((PageView.of document page schema).elementProps names element).get? prop =
      ((SortedMap.ofList ((PageView.givenProps element).map
        ((PageView.of document page schema).givenProp names element))).get? prop).or
          (if prop ∈ schema.controlled component then
            some ((PageView.of document page schema).controlledProp names (.prop element.id prop))
          else none) := by
  rw [PageView.elementProps, schema_of, known_component_iff.2 ⟨shows, knows⟩]
  exact PageView.get_controlled_added
    (fun prop => (PageView.of document page schema).controlledProp names (.prop element.id prop))
    (schema.controlled component) _ prop

theorem controlled_element_prop (holds : document.HoldsPage page) (names : PageNames)
    {component : String} (controls : Controls document page schema element component prop) :
    ((PageView.of document page schema).elementProps names element).get? prop =
      some ((PageView.of document page schema).controlledProp names (.prop element.id prop)) := by
  rw [get_element_props names controls.shows controls.known, if_pos controls.controlled]
  cases given : (SortedMap.ofList ((PageView.givenProps element).map
      ((PageView.of document page schema).givenProp names element))).get? prop with
  | none => rfl
  | some resolved =>
      obtain ⟨value, _, rfl⟩ := (get_given_props_iff names).1 given
      have state : HasState document page schema (.prop element.id prop) := .prop controls
      rw [PageView.givenProp, if_pos ((has_iff holds).2 state)]
      rfl

theorem stateless_element_prop (holds : document.HoldsPage page) (names : PageNames)
    (shown : document.Shown page.id element) (known : KnownElement schema element)
    (stateless : ¬HasState document page schema (.prop element.id prop))
    {resolved : ResolvedProp} :
    ((PageView.of document page schema).elementProps names element).get? prop = some resolved ↔
      ∃ value, element.Gives prop value ∧
        (PageView.of document page schema).valueProp names value = resolved := by
  obtain ⟨component, shows, knows⟩ := known
  have uncontrolled : prop ∉ schema.controlled component := fun controlled =>
    stateless (.prop ⟨shown, shows, knows, controlled⟩)
  have given (value : Bindable) :
      ((PageView.of document page schema).givenProp names element (prop, value)).2 =
        (PageView.of document page schema).valueProp names value :=
    if_neg fun has => stateless ((has_iff holds).1 has)
  rw [get_element_props names shows knows, if_neg uncontrolled, Option.or_none,
    get_given_props_iff]
  simp only [given]

theorem element_prop_iff (holds : document.HoldsPage page) (names : PageNames)
    (shown : document.Shown page.id element) {resolved : ResolvedProp} :
    ((PageView.of document page schema).elementProps names element).get? prop = some resolved ↔
      ((∃ component, Controls document page schema element component prop) ∧
        resolved = (PageView.of document page schema).controlledProp names
          (.prop element.id prop)) ∨
      ∃ value, ShowsValue document page schema element prop value ∧
        resolved = (PageView.of document page schema).valueProp names value := by
  constructor
  · intro found
    by_cases known : KnownElement schema element
    · by_cases state : HasState document page schema (.prop element.id prop)
      · obtain ⟨component, controls⟩ := (prop_state_iff holds shown).1 state
        rw [controlled_element_prop holds names controls] at found
        exact Or.inl ⟨⟨component, controls⟩, (Option.some.inj found).symm⟩
      · obtain ⟨value, given, rfl⟩ :=
          (stateless_element_prop holds names shown known state).1 found
        exact Or.inr ⟨value, ⟨shown, known, given, state⟩, rfl⟩
    · rw [element_props_unknown names known, SortedMap.get_empty] at found
      cases found
  · rintro (⟨⟨component, controls⟩, rfl⟩ | ⟨value, shows, rfl⟩)
    · exact controlled_element_prop holds names controls
    · exact (stateless_element_prop holds names shown shows.known shows.stateless).2
        ⟨value, shows.given, rfl⟩

end PageBuilder.Document
