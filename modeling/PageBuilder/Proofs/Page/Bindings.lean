import PageBuilder.Component.Catalog
import PageBuilder.Proofs.Document.Run
import PageBuilder.Proofs.Page.Names
import Mathlib.Data.List.Flatten
import Mathlib.Data.List.Forall2

/-!
Bindings of a page read declared state only. Every piece of state that shares no pair is declared
once, after all that it reads, and whatever else names state has the names of a declaration.
-/

namespace PageBuilder

theorem PageView.get_controlled_added (pair : String → ResolvedProp) (controlled : List String)
    (props : SortedMap ResolvedProp) (prop : String) :
    (controlled.foldl
      (fun props prop => if props.contains prop then props else props.insert prop (pair prop))
      props).get? prop =
        (props.get? prop).or (if prop ∈ controlled then some (pair prop) else none) := by
  induction controlled generalizing props with
  | nil => simp
  | cons first rest ih =>
      rw [List.foldl_cons, ih]
      by_cases held : props.contains first = true
      · rw [if_pos held]
        by_cases same : prop = first
        · obtain ⟨value, found⟩ := props.contains_iff.1 held
          rw [same, found, Option.some_or, Option.some_or]
        · simp [same]
      · rw [if_neg held, SortedMap.get_insert]
        by_cases same : prop = first
        · have unknown : props.get? first = none := by
            simpa [SortedMap.contains] using held
          rw [if_pos same, same, unknown]
          simp
        · simp [same]

namespace Document

section Code

variable (document : Document) (page : Node) (schema : PropSchema)
  (declarations : List StateDeclaration)

/-- The names of a piece of state are those with which its owner is declared. -/
def DeclaredAs (key : StateKey) (names : StateNames) : Prop :=
  ∃ declaration ∈ declarations,
    OwnedBy document page schema key declaration.key ∧ declaration.names = names

/-- A reference is the declared name of what it refers to with the path from there, or else stands
for nothing. -/
inductive ReferenceCode : Reference → String → Prop
  | state {reference : Reference} {key : StateKey} {path : List PathSegment}
      {names : StateNames} (refers : Refers document page schema reference key path)
      (declared : DeclaredAs document page schema declarations key names) :
      ReferenceCode reference (names.value ++ PathSegment.textOf path)
  | nothing {reference : Reference}
      (unknown : ∀ key path, ¬Refers document page schema reference key path) :
      ReferenceCode reference placeholder

inductive PartCode (format : BoundFormat) : TemplatePart → String → Prop
  | text (chars : List Char) : PartCode format (.text chars) (PageView.pieceOfText format chars)
  | interpolation {reference : Reference} {code : String}
      (reads : ReferenceCode document page schema declarations reference code) :
      PartCode format (.interpolation reference) (PageView.pieceOfCode format code)
  | invalid (written : List Char) (fault : ReferenceFault) :
      PartCode format (.invalid written fault) (PageView.pieceOfCode format placeholder)

/-- What a page shows for a value. A script has no names in it: it runs against the runtime
scope. -/
inductive ShownAs : Bindable → ResolvedProp → Prop
  | const (value : Json) : ShownAs (.const value) (.code value.text)
  | state {id : NodeId} {slot : String} {key : StateKey} {names : StateNames}
      (state : HasState document page schema key) (address : key.address = (id, slot))
      (declared : DeclaredAs document page schema declarations key names) :
      ShownAs (.binding id slot) (.code names.value)
  | nothing {id : NodeId} {slot : String}
      (unknown : ∀ key, HasState document page schema key → key.address ≠ (id, slot)) :
      ShownAs (.binding id slot) (.code placeholder)
  | literal {text : String} {format : Option BoundFormat} {pieces : List String}
      (kind : PageView.formatOf (Template.read text) format = .literal)
      (parts : List.Forall₂ (PartCode document page schema declarations .literal)
        (Template.read text).parts pieces) :
      ShownAs (.bound text format) (.code ("`" ++ String.join pieces ++ "`"))
  | expression {text : String} {format : Option BoundFormat} {pieces : List String}
      (kind : PageView.formatOf (Template.read text) format = .expression)
      (parts : List.Forall₂ (PartCode document page schema declarations .expression)
        (Template.read text).parts pieces) :
      ShownAs (.bound text format) (.code (String.join pieces))
  | script (text : String) : ShownAs (.script text) (.script text)
  | secret (reference : String) : ShownAs (.secret reference) (.code (secretToken reference))

/-- A prop of an element is a declared pair, or shows the value that the element gives to it. -/
inductive PropShown (element : Node) (prop : String) : ResolvedProp → Prop
  | pair {names : StateNames}
      (declared : DeclaredAs document page schema declarations (.prop element.id prop) names) :
      PropShown element prop (.controlled names.value names.setter)
  | value {value : Bindable} {resolved : ResolvedProp} (given : element.Gives prop value)
      (shown : ShownAs document page schema declarations value resolved) :
      PropShown element prop resolved

/-- An entry of the runtime scope is the declared name of a state node, or an object with the
declared names of pairs in its fields. -/
inductive ScopeEntry : String → Prop
  | node {id : NodeId} {names : StateNames}
      (declared : DeclaredAs document page schema declarations (.node id) names) :
      ScopeEntry names.value
  | pairs {fields : SortedMap String}
      (declared : ∀ field code, fields.get? field = some code →
        ∃ key names, PageView.isPair key = true ∧ key.second = field ∧
          DeclaredAs document page schema declarations key names ∧ names.value = code) :
      ScopeEntry (PageView.groupText fields)

end Code

variable {document : Document} {page : Node} {schema : PropSchema} {scope : Scope}
  {order : List StateKey}

theorem source_eq_none_iff (holds : document.HoldsPage page) {view : PageView}
    {names : PageNames} {key : StateKey} {entry : StateEntry}
    (entered : Entered document page schema key entry) :
    view.source? names entry = none ↔ ∃ target, Shares document page schema key target := by
  cases entry with
  | shared target =>
      constructor
      · exact fun _ => ⟨target, (shares_iff holds).1 entered⟩
      · exact fun _ => rfl
  | pageSlot | node | owned | computed =>
      constructor
      · intro absent
        cases absent
      · intro shared
        refine absurd shared (entered.not_shared holds ?_)
        intro target same
        cases same

theorem declaration_eq_some_iff {view : PageView} {names : PageNames} {key : StateKey}
    {declaration : StateDeclaration} :
    view.declaration? names key = some declaration ↔ ∃ entry source,
      view.entryOf? key = some entry ∧ view.source? names entry = some source ∧
        declaration = ⟨key, view.label key, names.of view key, source⟩ := by
  unfold PageView.declaration?
  rw [Option.bind_eq_bind, Option.bind_eq_some_iff]
  constructor
  · intro made
    obtain ⟨entry, found, made⟩ := made
    rw [Option.bind_eq_bind, Option.bind_eq_some_iff] at made
    obtain ⟨source, given, same⟩ := made
    exact ⟨entry, source, found, given, (Option.some.inj same).symm⟩
  · intro made
    obtain ⟨entry, source, found, given, rfl⟩ := made
    refine ⟨entry, found, ?_⟩
    rw [given]
    rfl

/-- What is declared is the state that shares no pair. -/
theorem declared_iff (holds : document.HoldsPage page) (names : PageNames) {key : StateKey} :
    (∃ declaration, (PageView.of document page schema).declaration? names key =
        some declaration) ↔
      HasState document page schema key ∧ ¬∃ target, Shares document page schema key target := by
  constructor
  · intro made
    obtain ⟨declaration, made⟩ := made
    obtain ⟨entry, source, found, given, _⟩ := declaration_eq_some_iff.1 made
    have entered := (entry_iff holds).1 found
    refine ⟨has_state_iff.2 ⟨entry, entered⟩, ?_⟩
    intro shared
    rw [(source_eq_none_iff holds entered).2 shared] at given
    cases given
  · intro state
    obtain ⟨entry, entered⟩ := has_state_iff.1 state.1
    cases given : (PageView.of document page schema).source? names entry with
    | none => exact absurd ((source_eq_none_iff holds entered).1 given) state.2
    | some source =>
        exact ⟨_, declaration_eq_some_iff.2
          ⟨entry, source, (entry_iff holds).2 entered, given, rfl⟩⟩

theorem key_of_declaration {view : PageView} {names : PageNames} {key : StateKey}
    {declaration : StateDeclaration} (made : view.declaration? names key = some declaration) :
    declaration.key = key ∧ declaration.names = names.of view key := by
  obtain ⟨_, _, _, _, rfl⟩ := declaration_eq_some_iff.1 made
  exact ⟨rfl, rfl⟩

/-- Declarations keep the order of the keys that they are made from. -/
theorem keys_of_declarations (view : PageView) (names : PageNames) (keys : List StateKey) :
    (keys.filterMap (view.declaration? names)).map StateDeclaration.key =
      keys.filter fun key => (view.declaration? names key).isSome := by
  induction keys with
  | nil => rfl
  | cons key rest ih =>
      cases made : view.declaration? names key with
      | none => simp [made, ih]
      | some declaration => simp [made, ih, (key_of_declaration made).1]

theorem mem_declared_keys_iff (holds : document.HoldsPage page)
    (ended : (PageView.of document page schema).graph.order = .ok order) {names : PageNames}
    {key : StateKey} :
    key ∈ (order.filterMap ((PageView.of document page schema).declaration? names)).map
        StateDeclaration.key ↔
      HasState document page schema key ∧ ¬∃ target, Shares document page schema key target := by
  rw [keys_of_declarations, List.mem_filter, Option.isSome_iff_exists, declared_iff holds names,
    (graph_order_ok holds ended).2]
  exact and_iff_right_of_imp And.left

theorem reads_declared_before (holds : document.HoldsPage page)
    (ended : (PageView.of document page schema).graph.order = .ok order) {names : PageNames}
    {before after : List StateDeclaration} {declaration : StateDeclaration}
    (split : order.filterMap ((PageView.of document page schema).declaration? names) =
      before ++ declaration :: after) {target : StateKey}
    (reads : Reads document page schema declaration.key target) :
    ∃ earlier ∈ before, OwnedBy document page schema target earlier.key := by
  obtain ⟨ordered, _⟩ := graph_order_ok holds ended
  obtain ⟨early, late, whole, first, rest⟩ := List.filterMap_eq_append_iff.1 split
  obtain ⟨skipped, key, further, tail, undeclared, made, _⟩ := List.filterMap_eq_cons_iff.1 rest
  rw [tail, ← List.append_assoc] at whole
  rw [whole] at ordered
  rw [(key_of_declaration made).1] at reads
  obtain ⟨owner, _, owned⟩ := owner_of_order holds ended reads.states.2
  have earlier := owner_before holds ordered reads owned
  obtain ⟨found, declares⟩ := (declared_iff holds names).2 ⟨owned.state, owned.owns⟩
  refine ⟨found, ?_, ?_⟩
  · rw [← first]
    rcases List.mem_append.1 earlier with inside | passed
    · exact List.mem_filterMap.2 ⟨owner, inside, declares⟩
    · rw [undeclared owner passed] at declares
      cases declares
  · rw [(key_of_declaration declares).1]
    exact owned

/-- Declarations have the names that their keys were given. -/
theorem declarations_given (holds : document.HoldsPage page) (scope : Scope)
    (ended : (PageView.of document page schema).graph.order = .ok order)
    {declaration : StateDeclaration}
    (member : declaration ∈ order.filterMap ((PageView.of document page schema).declaration?
      (PageNames.ofView (PageView.of document page schema) scope))) :
    (declaration.key, declaration.names) ∈
      (PageNames.ofView (PageView.of document page schema) scope).given := by
  obtain ⟨key, _, made⟩ := List.mem_filterMap.1 member
  obtain ⟨state, owns⟩ := (declared_iff holds _).1 ⟨declaration, made⟩
  obtain ⟨same, names⟩ := key_of_declaration made
  rw [same, names]
  exact names_of_state holds scope ended (.self state owns)

theorem given_declared (holds : document.HoldsPage page) (scope : Scope)
    (ended : (PageView.of document page schema).graph.order = .ok order) {owner : StateKey}
    {given : StateNames} (member : (owner, given) ∈
      (PageNames.ofView (PageView.of document page schema) scope).given) :
    ∃ declaration ∈ order.filterMap ((PageView.of document page schema).declaration?
        (PageNames.ofView (PageView.of document page schema) scope)),
      declaration.names = given := by
  obtain ⟨wanted, wished⟩ := PageNames.wish_of_given member
  obtain ⟨entry, found, wished⟩ := Option.bind_eq_some_iff.1 wished
  have state : HasState document page schema owner :=
    has_state_iff.2 ⟨entry, (entry_iff holds).1 found⟩
  have source : ∃ source, (PageView.of document page schema).source?
      (PageNames.ofView (PageView.of document page schema) scope) entry = some source := by
    cases entry with
    | shared target => cases wished
    | pageSlot | node | owned | computed => exact ⟨_, rfl⟩
  obtain ⟨source, made⟩ := source
  have declares := declaration_eq_some_iff.2 ⟨entry, source, found, made, rfl⟩
  have owns := ((declared_iff holds _).1 ⟨_, declares⟩).2
  refine ⟨_, List.mem_filterMap.2 ⟨owner, (graph_order_ok holds ended).2 owner |>.2 state,
    declares⟩, ?_⟩
  have named := names_of_state holds scope ended (.self state owns)
  have once := (PageNames.apart_of_view (PageView.of document page schema) scope).once
  exact congrArg Prod.snd (List.inj_on_of_nodup_map once named member rfl)

/-- The names of declarations are new in the scope around, and distinct. -/
theorem declarations_add (holds : document.HoldsPage page) (scope : Scope)
    (ended : (PageView.of document page schema).graph.order = .ok order) :
    scope.Adds (PageNames.ofView (PageView.of document page schema) scope).scope
      ((order.filterMap ((PageView.of document page schema).declaration?
        (PageNames.ofView (PageView.of document page schema) scope))).flatMap
          fun declaration => declaration.names.all) := by
  have apart := PageNames.apart_of_view (PageView.of document page schema) scope
  have given := @declarations_given document page schema order holds scope ended
  generalize PageNames.ofView (PageView.of document page schema) scope = names at apart given
  have once := (graph_order_ok holds ended).1.nodup.filter fun key =>
    ((PageView.of document page schema).declaration? names key).isSome
  rw [← keys_of_declarations] at once
  generalize order.filterMap ((PageView.of document page schema).declaration? names) =
    declarations at once given
  have pairs : (declarations.map fun declaration =>
      (declaration.key, declaration.names)).Subperm names.given := by
    apply List.Nodup.subperm
    · apply List.Nodup.of_map Prod.fst
      rw [List.map_map]
      exact once
    · intro entry member
      obtain ⟨declaration, inside, rfl⟩ := List.mem_map.1 member
      exact given inside
  apply apart.adds.of_subperm
  obtain ⟨chosen, same, inside⟩ := pairs
  refine ⟨chosen.flatMap fun entry => entry.2.all, ?_, inside.flatMap _⟩
  have names := same.flatMap_right fun entry => entry.2.all
  rw [List.flatMap_map] at names
  exact names

/-- In what follows `declarations` and `names` are those of one order of the state. -/
theorem declared_of_state (holds : document.HoldsPage page)
    (ended : (PageView.of document page schema).graph.order = .ok order) (names : PageNames)
    {key : StateKey} (state : HasState document page schema key) :
    DeclaredAs document page schema
      (order.filterMap ((PageView.of document page schema).declaration? names)) key
      (names.of (PageView.of document page schema) key) := by
  obtain ⟨owner, found, owned⟩ := owner_of_order holds ended state
  have self := (owner_iff holds ended).2 (OwnedBy.self owned.state owned.owns)
  obtain ⟨declaration, made⟩ := (declared_iff holds names).2 ⟨owned.state, owned.owns⟩
  obtain ⟨key, given⟩ := key_of_declaration made
  refine ⟨declaration, ?_, key ▸ owned, ?_⟩
  · exact List.mem_filterMap.2 ⟨owner, ((graph_order_ok holds ended).2 owner).2 owned.state, made⟩
  · rw [given, PageNames.of, PageNames.of, self, found]

theorem mem_given_props_iff {element : Node} {entry : String × Bindable} :
    entry ∈ PageView.givenProps element ↔ element.Gives entry.1 entry.2 := by
  rw [PageView.givenProps, Node.Gives]
  split
  · rename_i props held
    rw [props.mem_entries_iff, held]
    simp
  · rename_i absent
    simp [absent]

section Reading

variable (holds : document.HoldsPage page)
  (ended : (PageView.of document page schema).graph.order = .ok order) (names : PageNames)

include holds ended

theorem reference_code (reference : Reference) :
    ReferenceCode document page schema
      (order.filterMap ((PageView.of document page schema).declaration? names)) reference
      ((PageView.of document page schema).referenceCode names reference) := by
  rw [PageView.referenceCode]
  split
  · rename_i key path named
    have refers := (reference_target_iff holds).1 named
    exact .state refers (declared_of_state holds ended names refers.state)
  · rename_i unknown
    apply ReferenceCode.nothing
    intro key path refers
    rw [(reference_target_iff holds).2 refers] at unknown
    cases unknown

theorem part_codes (format : BoundFormat) (parts : List TemplatePart) :
    List.Forall₂ (PartCode document page schema
        (order.filterMap ((PageView.of document page schema).declaration? names)) format) parts
      (parts.map ((PageView.of document page schema).partCode names format)) := by
  rw [List.forall₂_map_right_iff, List.forall₂_same]
  intro part _
  cases part with
  | text chars => exact .text chars
  | interpolation reference => exact .interpolation (reference_code holds ended names reference)
  | invalid written fault => exact .invalid written fault

theorem value_prop (value : Bindable) :
    ShownAs document page schema
      (order.filterMap ((PageView.of document page schema).declaration? names)) value
      ((PageView.of document page schema).valueProp names value) := by
  cases value with
  | const value => exact .const value
  | binding id slot =>
      simp only [PageView.valueProp, PageView.valueCode]
      split
      · rename_i key named
        obtain ⟨state, address⟩ := (target_iff holds).1 named
        exact .state state address (declared_of_state holds ended names state)
      · rename_i unknown
        apply ShownAs.nothing
        intro key state address
        rw [(target_iff holds).2 ⟨state, address⟩] at unknown
        cases unknown
  | bound text format =>
      have parts := part_codes holds ended names
        (PageView.formatOf (Template.read text) format) (Template.read text).parts
      simp only [PageView.valueProp, PageView.valueCode, PageView.templateCode]
      cases kind : PageView.formatOf (Template.read text) format with
      | literal =>
          rw [kind] at parts
          exact .literal kind parts
      | expression =>
          rw [kind] at parts
          exact .expression kind parts
  | script text => exact .script text
  | secret reference => exact .secret reference

theorem controlled_prop (element : Node) (prop : String)
    (state : HasState document page schema (.prop element.id prop)) :
    PropShown document page schema
      (order.filterMap ((PageView.of document page schema).declaration? names)) element prop
      ((PageView.of document page schema).controlledProp names (.prop element.id prop)) :=
  .pair (declared_of_state holds ended names state)

theorem given_prop (element : Node) {entry : String × Bindable}
    (given : element.Gives entry.1 entry.2) :
    PropShown document page schema
      (order.filterMap ((PageView.of document page schema).declaration? names)) element entry.1
      ((PageView.of document page schema).givenProp names element entry).2 := by
  rw [PageView.givenProp]
  dsimp only
  split
  · rename_i has
    exact controlled_prop holds ended names element entry.1 ((has_iff holds).1 has)
  · exact .value given (value_prop holds ended names entry.2)

theorem element_props {element : Node} (shown : document.Shown page.id element) {prop : String}
    {resolved : ResolvedProp}
    (found : ((PageView.of document page schema).elementProps names element).get? prop =
      some resolved) :
    PropShown document page schema
      (order.filterMap ((PageView.of document page schema).declaration? names)) element prop
      resolved := by
  rw [PageView.elementProps] at found
  split at found
  · rw [SortedMap.get_empty] at found
    cases found
  · rename_i component known
    obtain ⟨shows, knows⟩ := Option.filter_eq_some_iff.1 known
    rw [PageView.get_controlled_added
      (fun prop => (PageView.of document page schema).controlledProp names (.prop element.id prop)),
      Option.or_eq_some_iff] at found
    rcases found with listed | ⟨_, added⟩
    · obtain ⟨entry, given, same⟩ := List.mem_map.1 (SortedMap.mem_of_get_of_list listed)
      cases same
      exact given_prop holds ended names element (mem_given_props_iff.1 given)
    · split at added
      · rename_i controlled
        rw [← Option.some.inj added]
        exact controlled_prop holds ended names element prop
          (.prop ⟨shown, shows, knows, controlled⟩)
      · cases added

/-- Only elements that the page shows have props. -/
theorem props_shown {id : NodeId} {props : SortedMap ResolvedProp}
    (found : ((PageView.of document page schema).props names).get? id = some props) :
    ∃ element, document.Shown page.id element ∧ element.id = id ∧
      ∀ prop resolved, props.get? prop = some resolved → PropShown document page schema
        (order.filterMap ((PageView.of document page schema).declaration? names)) element prop
        resolved := by
  obtain ⟨element, member, same⟩ := List.mem_map.1 (SortedMap.mem_of_get_of_list found)
  cases same
  have shown := holds.mem_markup_iff.1 member
  exact ⟨element, shown, rfl, fun prop resolved listed =>
    element_props holds ended names shown listed⟩

theorem group_fields {owner field code : String}
    (found : ((PageView.of document page schema).groupOf names owner).get? field = some code) :
    ∃ key given, PageView.isPair key = true ∧ key.second = field ∧
      DeclaredAs document page schema
        (order.filterMap ((PageView.of document page schema).declaration? names)) key given ∧
      given.value = code := by
  obtain ⟨key, member, same⟩ := List.mem_filterMap.1 (SortedMap.mem_of_get_of_list found)
  split at same
  · rename_i grouped
    cases same
    have state := (mem_keys_iff holds).1 member
    exact ⟨key, _, (Bool.and_eq_true_iff.1 grouped).1, rfl,
      declared_of_state holds ended names state, rfl⟩
  · cases same

theorem runtime_scope_entries {name code : String}
    (listed : (name, code) ∈ (PageView.of document page schema).runtimeScope names) :
    ScopeEntry document page schema
      (order.filterMap ((PageView.of document page schema).declaration? names)) code := by
  obtain ⟨⟨field, text⟩, member, same⟩ := List.mem_map.1 listed
  cases same
  have found := (SortedMap.mem_entries_iff _).1 member
  rcases List.mem_append.1 (SortedMap.mem_of_get_of_list found) with direct | group
  · obtain ⟨key, inside, same⟩ := List.mem_filterMap.1 direct
    have state := (mem_keys_iff holds).1 inside
    cases key with
    | node id =>
        cases same
        exact .node (declared_of_state holds ended names state)
    | pageSlot page slot => cases same
    | prop element name => cases same
  · obtain ⟨owner, _, same⟩ := List.mem_map.1 group
    cases same
    exact .pairs fun field code given => group_fields holds ended names given

end Reading

theorem holds_page (valid : document.Valid) {id : NodeId}
    (found : document.nodeOfType id .page = .ok page) : document.HoldsPage page ∧ page.id = id := by
  obtain ⟨present, type⟩ := node_of_type_ok.1 found
  have own : page.id = id := valid.stored present
  rw [← own] at present
  exact ⟨⟨valid, present, type⟩, own⟩

theorem bindings_ok (valid : document.Valid) {id : NodeId} {bindings : PageBindings}
    (resolved : document.bindings id schema scope = .ok bindings) :
    ∃ page order, document.HoldsPage page ∧ page.id = id ∧
      (PageView.of document page schema).graph.order = .ok order ∧
      (PageView.of document page schema).bindings scope = .ok bindings := by
  rw [Document.bindings] at resolved
  split at resolved
  · cases resolved
  · rename_i page found
    obtain ⟨holds, own⟩ := holds_page valid found
    cases ended : (PageView.of document page schema).graph.order with
    | ok order => exact ⟨page, order, holds, own, ended, resolved⟩
    | error cycle =>
        rw [PageView.bindings, ended] at resolved
        cases resolved

/-- Where the bindings of a page are found, its state is declared in an order in which nothing is
read before it is declared, and the code of the page reads nothing else. -/
theorem bindings_read_declared_state (valid : document.Valid) {id : NodeId}
    {bindings : PageBindings} (resolved : document.bindings id schema scope = .ok bindings) :
    ∃ page, document.get? id = some page ∧ page.type = .page ∧
      (bindings.declarations.map StateDeclaration.key).Nodup ∧
      (∀ key, key ∈ bindings.declarations.map StateDeclaration.key ↔
        HasState document page schema key ∧
          ¬∃ target, Shares document page schema key target) ∧
      (∀ before declaration after target,
        bindings.declarations = before ++ declaration :: after →
        Reads document page schema declaration.key target →
        ∃ earlier ∈ before, OwnedBy document page schema target earlier.key) ∧
      (∀ shown props, bindings.props.get? shown = some props →
        ∃ element, document.Shown page.id element ∧ element.id = shown ∧
          ∀ prop resolved, props.get? prop = some resolved →
            PropShown document page schema bindings.declarations element prop resolved) ∧
      ∀ entry ∈ bindings.runtimeScope,
        ScopeEntry document page schema bindings.declarations entry.2 := by
  obtain ⟨page, order, holds, own, ended, view⟩ := bindings_ok valid resolved
  obtain ⟨ordered, _⟩ := graph_order_ok holds ended
  rw [PageView.bindings, ended] at view
  cases view
  refine ⟨page, own ▸ holds.found, holds.type, ?_, ?_, ?_, ?_, ?_⟩
  · dsimp only
    rw [keys_of_declarations]
    exact ordered.nodup.filter _
  · intro key
    exact mem_declared_keys_iff holds ended
  · intro before declaration after target split reads
    exact reads_declared_before holds ended split reads
  · intro shown props found
    exact props_shown holds ended _ found
  · intro entry listed
    exact runtime_scope_entries holds ended _ listed

/-- A page with a slot, text fields in each other, of which the innermost shows what a derived state
makes of the outermost one, and that state. -/
def sampleFields (outer inner : Bindable) : List Action :=
  let page : Node := ⟨"p", "home", none, .empty, .page (.ofList [("count", .null)])⟩
  let field (id : NodeId) (value : Bindable) : Node :=
    ⟨id, id, none, .ofList [("component", .constString "TextField")],
      .element (.ofList [("value", value)])⟩
  let sum : Node :=
    ⟨"s", "sum", none, .empty, .derivedState (.ofList [("of", .binding "a" "value")])⟩
  [.addNode page "r" "pages" none, .addNode (field "a" outer) "p" "children" none,
    .addNode (field "b" inner) "a" "children" none,
    .addNode (field "c" (.bound "\x7b\x7b sum.total \x7d\x7d" none)) "b" "children" none,
    .addNode sum "p" "state" none]

/-- The outer field shares the pair of the inner one, and this the slot of the page. -/
def sharingPage : Document :=
  (ofRoot "r").run (sampleFields (.binding "b" "value") (.binding "p" "count"))

theorem bindings_read_declared_state_sample :
    sharingPage.Valid ∧ ∃ page bindings,
      sharingPage.bindings "p" Catalog.builtin.schema Scope.root = .ok bindings ∧
      bindings.declarations.map StateDeclaration.key =
        [.pageSlot "p" "count", .node "s", .prop "c" "value"] ∧
      (bindings.declarations.map StateDeclaration.key).Nodup ∧
      ¬∃ target, Shares sharingPage page Catalog.builtin.schema (.prop "c" "value") target := by
  have valid : sharingPage.Valid := valid_run (valid_of_root "r") _
  have keys : (sharingPage.bindings "p" Catalog.builtin.schema Scope.root).map
      (fun bindings => bindings.declarations.map StateDeclaration.key) =
        .ok [.pageSlot "p" "count", .node "s", .prop "c" "value"] := by
    decide +kernel
  obtain ⟨bindings, resolved, listed⟩ := Outcome.map_eq_ok.1 keys
  obtain ⟨page, _, _, once, declared, _⟩ := bindings_read_declared_state valid resolved
  refine ⟨valid, page, bindings, resolved, listed, once, ?_⟩
  exact ((declared (.prop "c" "value")).1 (by simp [listed])).2

end Document

end PageBuilder
