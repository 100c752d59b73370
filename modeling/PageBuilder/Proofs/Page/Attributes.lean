import PageBuilder.Proofs.Page.Renderings

/-!
The names in the tag of a known element: its props, the change events of its controlled props, and
the slots with lines of their own. An event is left out where the element sets a prop of that name,
but neither the events nor the slots are held against each other.
-/

namespace PageBuilder

namespace Code.MarkupTag

variable (tag : MarkupTag)

def slotAttribute (slot : String × List String) : String × String :=
  (slot.1, "\x7b\n" ++ indentLines 2 (wrapFragments slot.2) ++ "  \x7d")

/-- All that stands in the opening tag behind the name. -/
def opening : List (String × String) := tag.attributes ++ tag.namedSlots.map slotAttribute

def attributeNames : List String := tag.opening.map Prod.fst

theorem slot_lines_attribute (slot : String × List String) :
    slotLines slot = attributeLine (slotAttribute slot) := by
  apply String.toList_injective
  simp [slotLines, attributeLine, slotAttribute, ToString.toString]

/-- The tag up to its children: all on one line, or a line of its own for each attribute. -/
def openingText : String :=
  if tag.namedSlots.isEmpty then
    s!"<{tag.name}" ++ String.join (tag.opening.map inlineAttribute)
  else s!"<{tag.name}\n" ++ String.join (tag.opening.map attributeLine)

def closingText : String :=
  if tag.children.isEmpty then if tag.namedSlots.isEmpty then " />" else "/>" else tag.body

theorem opening_lines : String.join (tag.opening.map attributeLine) =
    String.join (tag.attributes.map attributeLine) ++
      String.join (tag.namedSlots.map slotLines) := by
  rw [opening, List.map_append, List.map_map, String.join_append]
  congr 2
  exact List.map_congr_left fun slot _ => (slot_lines_attribute slot).symm

theorem render_opening : tag.render = tag.openingText ++ tag.closingText := by
  rw [render, openingText, closingText]
  cases empty : tag.namedSlots.isEmpty with
  | true =>
      have held : tag.opening = tag.attributes := by
        rw [opening, List.isEmpty_iff.1 empty, List.map_nil, List.append_nil]
      rw [held]
      rfl
  | false =>
      rw [tag.opening_lines, if_neg Bool.false_ne_true, if_neg Bool.false_ne_true,
        if_neg Bool.false_ne_true]
      simp only [String.append_assoc]

theorem attribute_names_eq :
    tag.attributeNames = tag.attributes.map Prod.fst ++ tag.namedSlots.map Prod.fst := by
  rw [attributeNames, opening, List.map_append, List.map_map]
  rfl

theorem named_slots_nodup : (tag.namedSlots.map Prod.fst).Nodup :=
  tag.slots.keys_nodup.sublist (List.filter_sublist.map Prod.fst)

theorem attribute_names_nodup_iff :
    tag.attributeNames.Nodup ↔ (tag.attributes.map Prod.fst).Nodup ∧
      ∀ slot ∈ tag.namedSlots.map Prod.fst, slot ∉ tag.attributes.map Prod.fst := by
  rw [attribute_names_eq, List.nodup_append]
  constructor
  · rintro ⟨once, _, apart⟩
    exact ⟨once, fun slot named written => apart slot written slot named rfl⟩
  · rintro ⟨once, apart⟩
    refine ⟨once, tag.named_slots_nodup, ?_⟩
    rintro name written slot named rfl
    exact apart name named written

end Code.MarkupTag

namespace PageCompiler

section Events

variable (definition : ComponentDefinition) (props : SortedMap ResolvedProp)

/-- A controlled prop with a setter, whose change event is no prop of the element. -/
structure Wires (prop event : String) : Prop where
  controlled : ∃ value setter, props.get? prop = some (.controlled value (some setter))
  fires : changeEvent? definition prop = some event
  free : props.contains event = false

def wiredEvent? (entry : String × ResolvedProp) : Option String :=
  match entry.2 with
  | .controlled _ (some _) =>
      (changeEvent? definition entry.1).filter fun event => !props.contains event
  | _ => none

def wiredEvents : List String := props.entries.filterMap (wiredEvent? definition props)

variable {definition props}

theorem wired_event_iff {entry : String × ResolvedProp} (listed : entry ∈ props.entries)
    {event : String} :
    wiredEvent? definition props entry = some event ↔ Wires definition props entry.1 event := by
  have held := props.mem_entries_iff.1 listed
  obtain ⟨prop, resolved⟩ := entry
  constructor
  · intro wired
    rw [wiredEvent?] at wired
    split at wired
    · rename_i value setter controlled
      obtain ⟨fires, free⟩ := Option.filter_eq_some_iff.1 wired
      exact ⟨⟨value, setter, by rw [← controlled]; exact held⟩, fires, by simpa using free⟩
    · cases wired
  · rintro ⟨⟨value, setter, controlled⟩, fires, free⟩
    cases held.symm.trans controlled
    exact Option.filter_eq_some_iff.2 ⟨fires, by simpa using free⟩

theorem mem_wired_events_iff {event : String} :
    event ∈ wiredEvents definition props ↔ ∃ prop, Wires definition props prop event := by
  rw [wiredEvents, List.mem_filterMap]
  constructor
  · rintro ⟨entry, listed, wired⟩
    exact ⟨entry.1, (wired_event_iff listed).1 wired⟩
  · rintro ⟨prop, wires⟩
    obtain ⟨value, setter, held⟩ := wires.controlled
    have listed := props.mem_entries_iff.2 held
    exact ⟨_, listed, (wired_event_iff listed).2 wires⟩

theorem wired_events_nodup_iff :
    (wiredEvents definition props).Nodup ↔
      ∀ first second event, Wires definition props first event →
        Wires definition props second event → first = second := by
  rw [wiredEvents, List.Nodup, List.pairwise_filterMap]
  constructor
  · intro apart first second event wires again
    obtain ⟨value, setter, held⟩ := wires.controlled
    obtain ⟨other, further, there⟩ := again.controlled
    have listed := props.mem_entries_iff.2 held
    have inside := props.mem_entries_iff.2 there
    have swap : Std.Symm fun left right => ∀ here, wiredEvent? definition props left = some here →
        ∀ there, wiredEvent? definition props right = some there → here ≠ there :=
      ⟨fun _ _ differ here wired there again same => differ there again here wired same.symm⟩
    by_contra different
    have differ := apart.forall listed inside fun same => different (Prod.mk.inj same).1
    exact differ event ((wired_event_iff listed).2 wires) event
      ((wired_event_iff inside).2 again) rfl
  · intro once
    apply props.entries_nodup.pairwise_of_forall_ne
    rintro ⟨first, left⟩ listed ⟨second, right⟩ inside different event wired _ again rfl
    have same := once first second event ((wired_event_iff listed).1 wired)
      ((wired_event_iff inside).1 again)
    subst same
    have held := props.mem_entries_iff.1 listed
    rw [props.mem_entries_iff.1 inside] at held
    cases held
    exact different rfl

variable {context : MarkupContext}

/-- A prop is followed by its event at most. -/
theorem prop_attribute_names (entry : String × ResolvedProp) :
    (propAttributes context definition props entry).map Prod.fst =
      entry.1 :: (wiredEvent? definition props entry).toList := by
  obtain ⟨prop, resolved⟩ := entry
  cases resolved with
  | code code => rfl
  | script script => rfl
  | controlled value setter =>
      cases setter with
      | none => rfl
      | some setter =>
          rw [propAttributes, wiredEvent?]
          cases changeEvent? definition prop with
          | none => rfl
          | some event =>
              dsimp only
              rw [Option.filter_some]
              cases props.contains event with
              | true => rfl
              | false => rfl

theorem props_attribute_names :
    ((props.entries.flatMap (propAttributes context definition props)).map Prod.fst).Perm
      (props.keys ++ wiredEvents definition props) := by
  have parted := List.flatMap_append_perm props.entries (fun entry => [entry.1])
    fun entry => (wiredEvent? definition props entry).toList
  rw [← List.map_eq_flatMap, ← List.filterMap_eq_flatMap_toList] at parted
  rw [List.map_flatMap]
  simp only [prop_attribute_names]
  exact parted.symm

theorem mem_props_attribute_names {name : String} :
    name ∈ (props.entries.flatMap (propAttributes context definition props)).map Prod.fst ↔
      props.contains name = true ∨ ∃ prop, Wires definition props prop name := by
  rw [props_attribute_names.mem_iff, List.mem_append, mem_wired_events_iff, props.contains_iff,
    SortedMap.mem_keys_iff]

/-- An event never takes the name of a prop, so only events can be there twice. -/
theorem props_attribute_names_nodup_iff :
    ((props.entries.flatMap (propAttributes context definition props)).map Prod.fst).Nodup ↔
      ∀ first second event, Wires definition props first event →
        Wires definition props second event → first = second := by
  rw [props_attribute_names.nodup_iff, List.nodup_append, ← wired_events_nodup_iff]
  constructor
  · exact fun once => once.2.1
  · refine fun once => ⟨props.keys_nodup, once, ?_⟩
    rintro name given event wired rfl
    obtain ⟨prop, wires⟩ := mem_wired_events_iff.1 wired
    have set := props.contains_iff.2 (props.mem_keys_iff.1 given)
    rw [wires.free] at set
    cases set

end Events

/-- An element in a slot besides the one for children. -/
def NamedSlot (document : Document) (element : NodeId) (slot : String) : Prop :=
  slot ≠ childrenSlot ∧ ∃ node ∈ document.childrenIn element slot, node.type = .element

section Tags

variable {context : MarkupContext} {rendering : Rendering} {slots : SortedMap (List Rendering)}

def renderedTag (context : MarkupContext) (element : Node) (slots : SortedMap (List Rendering)) :
    Code.MarkupTag :=
  elementTag context element (slots.mapValues (List.map Rendering.text))

theorem attributes_rendered_tag {element : Node} {definition : ComponentDefinition}
    (known : context.catalog.find? (element.component?.getD "") = some definition)
    (slots : SortedMap (List Rendering)) :
    (renderedTag context element slots).attributes = attributes context definition element := by
  rw [renderedTag, element_tag_known known]

theorem Composed.slot_iff (composed : Composed context rendering slots) {slot : String} :
    (∃ items, (slot, items) ∈ slots.entries ∧ items ≠ []) ↔
      ∃ node ∈ context.document.childrenIn rendering.element.id slot, node.type = .element := by
  constructor
  · rintro ⟨items, member, nonempty⟩
    have inside : (slot, items.map Rendering.element) ∈ slots.entries.map
        fun slot => (slot.1, slot.2.map Rendering.element) := List.mem_map.2 ⟨_, member, rfl⟩
    rw [composed.held, Document.childSlots, List.map_map] at inside
    obtain ⟨name, _, same⟩ := List.mem_map.1 inside
    obtain ⟨rfl, elements⟩ := Prod.mk.inj same
    obtain ⟨item, held⟩ := List.exists_mem_of_ne_nil items nonempty
    have first := List.mem_map_of_mem (f := Rendering.element) held
    rw [← elements] at first
    obtain ⟨listed, type⟩ := List.mem_filter.1 first
    exact ⟨item.element, listed, of_decide_eq_true type⟩
  · rintro ⟨node, member, type⟩
    obtain ⟨present, stands⟩ := Document.mem_children_in.1 member
    have inside : (slot, (context.document.childrenIn rendering.element.id slot).filter isElement) ∈
        (context.document.childSlots rendering.element.id).map
          fun slot => (slot.1, slot.2.filter isElement) := by
      rw [Document.childSlots, List.map_map]
      exact List.mem_map.2 ⟨slot, Document.mem_slots_of.2 ⟨node, present, stands⟩, rfl⟩
    rw [← composed.held] at inside
    obtain ⟨⟨name, items⟩, listed, same⟩ := List.mem_map.1 inside
    obtain ⟨rfl, elements⟩ := Prod.mk.inj same
    refine ⟨items, listed, fun empty => ?_⟩
    have first : node ∈ (context.document.childrenIn rendering.element.id name).filter isElement :=
      List.mem_filter.2 ⟨member, decide_eq_true type⟩
    rw [← elements, empty] at first
    cases first

theorem Composed.named_slot_iff (composed : Composed context rendering slots)
    {definition : ComponentDefinition}
    (known : context.catalog.find? (rendering.element.component?.getD "") = some definition)
    {slot : String} :
    slot ∈ (renderedTag context rendering.element slots).namedSlots.map Prod.fst ↔
      NamedSlot context.document rendering.element.id slot := by
  have tag : renderedTag context rendering.element slots = Code.MarkupTag.showing slots
      (aliasOr context.imports definition.source definition.exported)
      (attributes context definition rendering.element) Rendering.text := by
    rw [renderedTag, element_tag_known known]
    rfl
  rw [tag, Code.MarkupTag.named_showing, List.map_map, NamedSlot, ← composed.slot_iff, List.mem_map]
  constructor
  · rintro ⟨⟨name, items⟩, member, rfl⟩
    obtain ⟨listed, named⟩ := List.mem_filter.1 member
    rw [Bool.and_eq_true, decide_eq_true_iff] at named
    exact ⟨named.1, items, listed, by simpa using named.2⟩
  · rintro ⟨named, items, listed, nonempty⟩
    exact ⟨(slot, items), List.mem_filter.2 ⟨listed, by simp [named, nonempty]⟩, rfl⟩

/-- Names meet in a tag if two controlled props have one event, or if a slot has the name of a prop
or of an event. -/
theorem Composed.attribute_names_nodup_iff (composed : Composed context rendering slots)
    {definition : ComponentDefinition}
    (known : context.catalog.find? (rendering.element.component?.getD "") = some definition)
    {props : SortedMap ResolvedProp}
    (resolved : context.bindings.props.get? rendering.element.id = some props) :
    (renderedTag context rendering.element slots).attributeNames.Nodup ↔
      (∀ first second event, Wires definition props first event →
        Wires definition props second event → first = second) ∧
      ∀ slot, NamedSlot context.document rendering.element.id slot →
        props.contains slot = false ∧ ¬∃ prop, Wires definition props prop slot := by
  have written : (renderedTag context rendering.element slots).attributes =
      props.entries.flatMap (propAttributes context definition props) := by
    rw [attributes_rendered_tag known, attributes, resolved]
  rw [Code.MarkupTag.attribute_names_nodup_iff, written, props_attribute_names_nodup_iff]
  simp only [composed.named_slot_iff known, mem_props_attribute_names, not_or,
    Bool.not_eq_true]

end Tags

end PageCompiler

namespace Document

open PageCompiler

variable {document : Document} {catalog : Catalog}

/-- The text of a known element, which the page renders, is its tag. The names in the tag are all
different unless two controlled props have the same change event, or a slot with elements in it,
besides the one for children, has the name of a prop or of such an event. -/
theorem tag_names_distinct_iff (valid : document.Valid) {id : NodeId} {options : CompileOptions}
    {compiled : CompiledPage} (done : document.compilePage id catalog options = .ok compiled) :
    ∃ page plan, document.nodeOfType id .page = .ok page ∧
      PageCompiler.plan document page catalog options = .ok plan ∧
      ∀ rendering ∈ Rendering.allOf (renderings (plan.context document catalog options)
          document.size (document.childrenIn id childrenSlot)),
        ∀ definition, catalog.find? (rendering.element.component?.getD "") = some definition →
          ∃ props, plan.bindings.props.get? rendering.element.id = some props ∧
            (∃ slots, Composed (plan.context document catalog options) rendering slots) ∧
            ∀ slots, Composed (plan.context document catalog options) rendering slots →
              let tag := renderedTag (plan.context document catalog options) rendering.element slots
              rendering.text = marked (plan.context document catalog options) rendering.element
                (tag.openingText ++ tag.closingText) ∧
              (tag.attributeNames.Nodup ↔
                (∀ first second event, Wires definition props first event →
                  Wires definition props second event → first = second) ∧
                ∀ slot, NamedSlot document rendering.element.id slot →
                  props.contains slot = false ∧ ¬∃ prop, Wires definition props prop slot) := by
  obtain ⟨page, plan, found, planned, _⟩ := compile_page_ok done
  obtain ⟨holds, rfl⟩ := holds_page valid found
  obtain ⟨names, bound⟩ := plan_bound holds planned
  refine ⟨page, plan, found, planned, fun rendering member definition known => ?_⟩
  obtain ⟨slots, composed, _⟩ := composed_renderings
    (plan.context document catalog options) holds.stored holds.top_shallow member
  have listed : rendering.element ∈ document.markupElements page.id := by
    have inside := List.mem_map_of_mem (f := Rendering.element) member
    rwa [rendered_elements] at inside
  have resolved : ((PageView.of document page catalog.schema).props names).get?
      rendering.element.id = some _ := props_of_shown holds names (holds.mem_markup_iff.1 listed)
  rw [← bound.props] at resolved
  refine ⟨_, resolved, ⟨slots, composed⟩, fun slots composed => ⟨?_, ?_⟩⟩
  · rw [composed.text, ← Code.MarkupTag.render_opening]
    rfl
  · exact composed.attribute_names_nodup_iff known resolved

/-- A component with two controlled props that call the same event. -/
def twoValues : ComponentDefinition :=
  ⟨"T", "m", none, .ofList [("a", ⟨.string, none, some "onChange"⟩),
    ("b", ⟨.string, none, some "onChange"⟩)]⟩

def oneEvent : Catalog := Catalog.empty.register twoValues

/-- Of the element of such a component both events are written. -/
theorem one_event_rendered : ∃ compiled page plan rendering slots,
    (elementPage "home").compilePage "p" oneEvent rawOptions = .ok compiled ∧
    (elementPage "home").nodeOfType "p" .page = .ok page ∧
    PageCompiler.plan (elementPage "home") page oneEvent rawOptions = .ok plan ∧
    rendering ∈ Rendering.allOf (renderings (plan.context (elementPage "home") oneEvent rawOptions)
      (elementPage "home").size ((elementPage "home").childrenIn "p" childrenSlot)) ∧
    oneEvent.find? (rendering.element.component?.getD "") = some twoValues ∧
    Composed (plan.context (elementPage "home") oneEvent rawOptions) rendering slots ∧
    ¬(renderedTag (plan.context (elementPage "home") oneEvent rawOptions) rendering.element
      slots).attributeNames.Nodup := by
  have compiles : ((elementPage "home").compilePage "p" oneEvent rawOptions).map
      CompiledPage.component = .ok "Home" := by
    decide +kernel
  obtain ⟨compiled, done, _⟩ := Outcome.map_eq_ok.1 compiles
  obtain ⟨page, plan, found, planned, _⟩ := compile_page_ok done
  obtain ⟨holds, own⟩ := holds_page (element_page_valid "home") found
  have names : (((elementPage "home").nodeOfType "p" .page).toOption.bind fun page =>
      (PageCompiler.plan (elementPage "home") page oneEvent rawOptions).toOption.map fun plan =>
        ((elementPage "home").markupElements "p").map fun element => (element.component?,
          (attributes (plan.context (elementPage "home") oneEvent rawOptions) twoValues
            element).map Prod.fst)) =
      some [(some "T", ["a", "onChange", "b", "onChange"])] := by
    decide +kernel
  rw [found, Except.toOption, Option.bind_some, planned, Except.toOption, Option.map_some,
    Option.some.injEq] at names
  obtain ⟨element, only, same⟩ := List.map_eq_singleton_iff.1 names
  obtain ⟨component, written⟩ := Prod.mk.inj same
  have rendered := rendered_elements (plan.context (elementPage "home") oneEvent rawOptions)
    (elementPage "home").size ((elementPage "home").childrenIn "p" childrenSlot)
  change _ = (elementPage "home").markupElements "p" at rendered
  rw [only, List.map_eq_singleton_iff] at rendered
  obtain ⟨rendering, listed, rfl⟩ := rendered
  have member := List.mem_singleton_self rendering
  rw [← listed] at member
  have shallow := holds.top_shallow
  rw [own] at shallow
  obtain ⟨slots, composed, _⟩ := composed_renderings
    (plan.context (elementPage "home") oneEvent rawOptions) holds.stored shallow member
  have known : oneEvent.find? (rendering.element.component?.getD "") = some twoValues := by
    rw [component]
    exact SortedMap.get_insert_self _ _ _
  refine ⟨compiled, page, plan, rendering, slots, done, found, planned, member, known, composed, ?_⟩
  rw [Code.MarkupTag.attribute_names_nodup_iff, attributes_rendered_tag known, written]
  exact fun once => absurd once.1 (by decide)

theorem tag_names_distinct_iff_sample :
    (elementPage "home").Valid ∧ ∃ (compiled : CompiledPage) (plan : Plan) (rendering : Rendering)
        (props : SortedMap ResolvedProp),
      (elementPage "home").compilePage "p" oneEvent rawOptions = .ok compiled ∧
      plan.bindings.props.get? rendering.element.id = some props ∧
      ¬((∀ first second event, Wires twoValues props first event →
          Wires twoValues props second event → first = second) ∧
        ∀ slot, NamedSlot (elementPage "home") rendering.element.id slot →
          props.contains slot = false ∧ ¬∃ prop, Wires twoValues props prop slot) := by
  have valid := element_page_valid "home"
  obtain ⟨compiled, page, plan, rendering, slots, done, found, planned, member, known, composed,
    meet⟩ := one_event_rendered
  obtain ⟨_, _, here, again, told⟩ := tag_names_distinct_iff valid done
  cases found.symm.trans here
  cases planned.symm.trans again
  obtain ⟨props, resolved, _, distinct⟩ := told rendering member twoValues known
  exact ⟨valid, compiled, plan, rendering, props, done, resolved,
    fun apart => meet ((distinct slots composed).2.2 apart)⟩

/-- The names in a tag are not always different. -/
theorem tag_names_meet :
    ¬ ∀ (document : Document) (catalog : Catalog) (options : CompileOptions) (id : NodeId)
      (compiled : CompiledPage) (page : Node) (plan : Plan), document.Valid →
      document.compilePage id catalog options = .ok compiled →
      document.nodeOfType id .page = .ok page →
      PageCompiler.plan document page catalog options = .ok plan →
      ∀ rendering ∈ Rendering.allOf (renderings (plan.context document catalog options)
          document.size (document.childrenIn id childrenSlot)),
        (catalog.find? (rendering.element.component?.getD "")).isSome = true →
        ∀ slots, Composed (plan.context document catalog options) rendering slots →
          (renderedTag (plan.context document catalog options) rendering.element
            slots).attributeNames.Nodup := by
  intro always
  obtain ⟨compiled, page, plan, rendering, slots, done, found, planned, member, known, composed,
    meet⟩ := one_event_rendered
  exact meet (always (elementPage "home") oneEvent rawOptions "p" compiled page plan
    (element_page_valid "home") done found planned rendering member (by rw [known]; rfl) slots
    composed)

end Document

end PageBuilder
