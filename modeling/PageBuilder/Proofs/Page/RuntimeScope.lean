import PageBuilder.Proofs.Code.ObjectLiteral
import PageBuilder.Proofs.Page.FlatCode
import PageBuilder.Proofs.Page.Pairs

/-!
The object against which scripts run has each piece of state of the page at one path, and nothing
else: names of nodes are unique, so no entry takes the place of another, and keys are read back as
the names that they were made for.
-/

namespace PageBuilder

open Code.ObjectLiteral (Content Holds read?)

theorem StateKey.Suits.eq_of_second {left right : StateKey} {type : NodeType}
    (first : left.Suits type) (second : right.Suits type) (owner : left.owner = right.owner)
    (slot : left.second = right.second) : left = right := by
  cases left
  all_goals cases right
  all_goals simp_all [Suits, StateKey.owner, StateKey.first, StateKey.second,
    NodeType.isPageState]

namespace Document

/-- The keys by which scripts find a piece of state: the name of its node, and for slots and props
the name of these as well. -/
inductive FoundAt (document : Document) : StateKey → List String → Prop
  | node {node : Node} (found : document.get? node.id = some node) :
      FoundAt document (.node node.id) [node.name]
  | pair {key : StateKey} {holder : Node} (found : document.get? key.owner = some holder)
      (pair : PageView.isPair key = true) : FoundAt document key [holder.name, key.second]

/-- An object has the state of a page in the order of its names, each piece at its path, and nothing
besides. -/
structure Exposes (document : Document) (page : Node) (schema : PropSchema)
    (declarations : List StateDeclaration) (fields : List (String × Content)) : Prop where
  ordered : NamesIncrease fields
  grouped : ∀ name object, (name, .object object) ∈ fields → object ≠ [] ∧ NamesIncrease object
  path : ∀ key, HasState document page schema key → ∃! path, FoundAt document key path
  owner : ∀ key, HasState document page schema key →
    ∃! owner, OwnedBy document page schema key owner
  every : ∀ key path, HasState document page schema key → FoundAt document key path →
    ∃ names, DeclaredAs document page schema declarations key names ∧
      ∀ code, Holds fields path code ↔ code = names.value
  only : ∀ path code, Holds fields path code →
    ∃! key, HasState document page schema key ∧ FoundAt document key path

def pathOf (document : Document) : StateKey → List String
  | .node id => [document.labelOf id]
  | key => [document.labelOf key.owner, key.second]

theorem path_head (document : Document) (key : StateKey) :
    (document.pathOf key).headD "" = document.labelOf key.owner := by
  cases key
  all_goals rfl

theorem path_tail (document : Document) (key : StateKey) :
    (document.pathOf key).tail.headD "" = key.second := by
  cases key
  all_goals rfl

theorem path_of_pair_iff {document : Document} {key : StateKey} {holder field : String} :
    document.pathOf key = [holder, field] ↔
      PageView.isPair key = true ∧ document.labelOf key.owner = holder ∧ key.second = field := by
  cases key
  all_goals simp [pathOf, PageView.isPair]

theorem path_of_pair (document : Document) {key : StateKey} (pair : PageView.isPair key = true) :
    document.pathOf key = [document.labelOf key.owner, key.second] :=
  path_of_pair_iff.2 ⟨pair, rfl, rfl⟩

end Document

namespace PageView

variable (view : PageView) (names : PageNames)

def directContents : List (String × Content) :=
  (view.directEntries names).map fun entry => (entry.1, .name entry.2)

def groupContents : List (String × Content) :=
  view.groupNames.map fun holder => (holder, .object (view.groupOf names holder).entries)

def scopeContents : SortedMap Content :=
  SortedMap.ofList (view.directContents names ++ view.groupContents names)

theorem runtime_scope_eq : view.runtimeScope names =
    (view.scopeContents names).entries.map fun entry => (objectKey entry.1, entry.2.text) := by
  have texts : view.directEntries names ++ view.groupEntries names =
      (view.directContents names ++ view.groupContents names).map
        fun entry => (entry.1, entry.2.text) := by
    rw [directContents, groupContents, groupEntries, List.map_append, List.map_map, List.map_map]
    congr 1
    exact (List.map_id _).symm
  rw [runtimeScope, texts, SortedMap.of_list_map_values, scopeContents, SortedMap.mapValues,
    List.map_map]
  rfl

variable {view names}

theorem mem_direct_contents {name : String} {content : Content} :
    (name, content) ∈ view.directContents names ↔ ∃ id, .node id ∈ view.keys ∧
      view.document.labelOf id = name ∧ content = .name (names.of view (.node id)).value := by
  constructor
  · intro listed
    obtain ⟨entry, member, same⟩ := List.mem_map.1 listed
    obtain ⟨key, inside, made⟩ := List.mem_filterMap.1 member
    cases same
    cases key with
    | node id =>
        cases made
        exact ⟨id, inside, rfl, rfl⟩
    | pageSlot page slot => cases made
    | prop element prop => cases made
  · intro given
    obtain ⟨id, inside, rfl, rfl⟩ := given
    exact List.mem_map.2 ⟨_, List.mem_filterMap.2 ⟨_, inside, rfl⟩, rfl⟩

theorem mem_group_contents {name : String} {content : Content} :
    (name, content) ∈ view.groupContents names ↔
      (∃ key ∈ view.keys, isPair key = true ∧ view.document.labelOf key.owner = name) ∧
        content = .object (view.groupOf names name).entries := by
  constructor
  · intro listed
    obtain ⟨holder, member, same⟩ := List.mem_map.1 listed
    cases same
    obtain ⟨key, inside, rfl⟩ := List.mem_map.1 (List.mem_eraseDups.1 member)
    obtain ⟨inside, pair⟩ := List.mem_filter.1 inside
    exact ⟨⟨key, inside, pair, rfl⟩, rfl⟩
  · intro given
    obtain ⟨⟨key, inside, pair, rfl⟩, rfl⟩ := given
    have listed := List.mem_map_of_mem (f := fun key => view.document.labelOf key.owner)
      (List.mem_filter.2 ⟨inside, pair⟩)
    exact List.mem_map.2 ⟨_, List.mem_eraseDups.2 listed, rfl⟩

/-- No two pieces of state have one path, and nothing is at a name that has something below it. -/
structure PathsApart (view : PageView) : Prop where
  once : ∀ left ∈ view.keys, ∀ right ∈ view.keys,
    view.document.pathOf left = view.document.pathOf right → left = right
  unmixed : ∀ left ∈ view.keys, ∀ right ∈ view.keys,
    view.document.labelOf left.owner = view.document.labelOf right.owner →
    isPair left = isPair right

theorem PathsApart.mem_group (apart : PathsApart view) {holder field code : String} :
    (field, code) ∈ (view.groupOf names holder).entries ↔
      ∃ key ∈ view.keys, view.document.pathOf key = [holder, field] ∧
        (names.of view key).value = code := by
  have listed {field code : String} : (field, code) ∈ view.keys.filterMap (fun key =>
      if isPair key && view.document.labelOf key.owner = holder then
        some (key.second, (names.of view key).value)
      else none) ↔
      ∃ key ∈ view.keys, view.document.pathOf key = [holder, field] ∧
        (names.of view key).value = code := by
    simp only [List.mem_filterMap, Option.ite_none_right_eq_some, Bool.and_eq_true,
      decide_eq_true_eq, Option.some.injEq, Prod.mk.injEq, Document.path_of_pair_iff, and_assoc]
  rw [groupOf, SortedMap.mem_entries_iff, SortedMap.get_of_list_iff, listed]
  intro field left right first second
  obtain ⟨key, inside, path, rfl⟩ := listed.1 first
  obtain ⟨other, within, again, rfl⟩ := listed.1 second
  rw [apart.once key inside other within (path.trans again.symm)]

theorem PathsApart.content_unique (apart : PathsApart view) {name : String} {left right : Content}
    (first : (name, left) ∈ view.directContents names ++ view.groupContents names)
    (second : (name, right) ∈ view.directContents names ++ view.groupContents names) :
    left = right := by
  have never {left right : Content} (direct : (name, left) ∈ view.directContents names)
      (group : (name, right) ∈ view.groupContents names) : False := by
    obtain ⟨id, inside, label, _⟩ := mem_direct_contents.1 direct
    obtain ⟨⟨key, within, pair, again⟩, _⟩ := mem_group_contents.1 group
    -- One name is one node, which holds state as itself or in pairs but not in both ways.
    have same := apart.unmixed _ inside _ within (label.trans again.symm)
    rw [pair] at same
    cases same
  rcases List.mem_append.1 first with direct | group
  · rcases List.mem_append.1 second with again | group
    · obtain ⟨id, inside, label, rfl⟩ := mem_direct_contents.1 direct
      obtain ⟨other, within, same, rfl⟩ := mem_direct_contents.1 again
      have path : view.document.pathOf (.node id) = view.document.pathOf (.node other) := by
        rw [Document.pathOf, Document.pathOf, label, same]
      rw [apart.once _ inside _ within path]
    · exact (never direct group).elim
  · rcases List.mem_append.1 second with direct | again
    · exact (never direct group).elim
    · rw [(mem_group_contents.1 group).2, (mem_group_contents.1 again).2]

theorem PathsApart.mem_scope (apart : PathsApart view) {name : String} {content : Content} :
    (name, content) ∈ (view.scopeContents names).entries ↔
      (name, content) ∈ view.directContents names ∨
        (name, content) ∈ view.groupContents names := by
  rw [SortedMap.mem_entries_iff, scopeContents, ← List.mem_append]
  exact SortedMap.get_of_list_iff fun _ _ _ first second => apart.content_unique first second

theorem PathsApart.holds_iff (apart : PathsApart view) {path : List String} {code : String} :
    Holds (view.scopeContents names).entries path code ↔
      ∃ key ∈ view.keys, view.document.pathOf key = path ∧
        (names.of view key).value = code := by
  constructor
  · intro holds
    cases holds with
    | name listed =>
        rcases apart.mem_scope.1 listed with direct | group
        · obtain ⟨id, inside, label, same⟩ := mem_direct_contents.1 direct
          cases same
          exact ⟨_, inside, congrArg (fun name => [name]) label, rfl⟩
        · cases (mem_group_contents.1 group).2
    | field listed held =>
        rcases apart.mem_scope.1 listed with direct | group
        · obtain ⟨_, _, _, same⟩ := mem_direct_contents.1 direct
          cases same
        · cases (mem_group_contents.1 group).2
          exact apart.mem_group.1 held
  · intro given
    obtain ⟨key, inside, rfl, rfl⟩ := given
    have at_holder (pair : isPair key = true) :
        Holds (view.scopeContents names).entries
          [view.document.labelOf key.owner, key.second] (names.of view key).value := by
      have path := view.document.path_of_pair pair
      refine .field (apart.mem_scope.2 (Or.inr
        (mem_group_contents.2 ⟨⟨key, inside, pair, rfl⟩, rfl⟩))) ?_
      exact apart.mem_group.2 ⟨key, inside, path, rfl⟩
    cases key with
    | node id =>
        exact .name (apart.mem_scope.2 (Or.inl (mem_direct_contents.2 ⟨id, inside, rfl, rfl⟩)))
    | pageSlot page slot => exact at_holder rfl
    | prop element prop => exact at_holder rfl

theorem PathsApart.object_proper (apart : PathsApart view) {name : String}
    {object : List (String × String)}
    (listed : (name, .object object) ∈ (view.scopeContents names).entries) :
    object ≠ [] ∧ NamesIncrease object := by
  rcases apart.mem_scope.1 listed with direct | group
  · obtain ⟨_, _, _, same⟩ := mem_direct_contents.1 direct
    cases same
  · obtain ⟨⟨key, inside, pair, rfl⟩, same⟩ := mem_group_contents.1 group
    cases same
    have path := view.document.path_of_pair pair
    have field : (key.second, (names.of view key).value) ∈
        (view.groupOf names (view.document.labelOf key.owner)).entries :=
      apart.mem_group.2 ⟨key, inside, path, rfl⟩
    exact ⟨List.ne_nil_of_mem field, (view.groupOf names _).sorted⟩

theorem PathsApart.contents_proper (apart : PathsApart view) (scope : Scope)
    {entry : String × Content}
    (listed : entry ∈ (view.scopeContents (PageNames.ofView view scope)).entries) :
    entry.2.Proper := by
  have valid (key : StateKey) := PageNames.names_valid view scope key _ List.mem_cons_self
  rcases apart.mem_scope.1 listed with direct | group
  · obtain ⟨id, _, _, same⟩ := mem_direct_contents.1 direct
    rw [same]
    exact valid (.node id)
  · have same := (mem_group_contents.1 group).2
    rw [same]
    intro field held
    obtain ⟨key, _, _, value⟩ := apart.mem_group.1 held
    rw [← value]
    exact valid key

theorem PathsApart.read_runtime_scope (apart : PathsApart view) (scope : Scope) :
    read? (PageCompiler.scopeLiteral (view.runtimeScope (PageNames.ofView view scope))) =
      some (view.scopeContents (PageNames.ofView view scope)).entries := by
  rw [runtime_scope_eq]
  exact Code.ObjectLiteral.read_scope_literal fun _ listed => apart.contents_proper scope listed

end PageView

namespace Document

variable {document : Document} {page : Node} {schema : PropSchema} {scope : Scope}

theorem label_of_found {id : NodeId} {node : Node} (found : document.get? id = some node) :
    document.labelOf id = node.name := by
  rw [labelOf, found]

theorem found_at_iff (holds : document.HoldsPage page) {key : StateKey}
    (state : HasState document page schema key) {path : List String} :
    FoundAt document key path ↔ path = document.pathOf key := by
  obtain ⟨holder, found, _, _⟩ := state.suits holds
  constructor
  · intro here
    cases here with
    | node present => rw [pathOf, label_of_found present]
    | pair present pair => rw [path_of_pair document pair, label_of_found present]
  · intro same
    rw [same]
    have at_holder (pair : PageView.isPair key = true) :
        FoundAt document key [document.labelOf key.owner, key.second] := by
      rw [label_of_found found]
      exact .pair found pair
    cases key with
    | node id =>
        have own : holder.id = id := holds.stored found
        subst own
        have label : document.labelOf holder.id = holder.name := label_of_found found
        rw [pathOf, label]
        exact .node found
    | pageSlot page slot => exact at_holder rfl
    | prop element prop => exact at_holder rfl

theorem HasState.owner_of_label (holds : document.HoldsPage page) {left right : StateKey}
    (first : HasState document page schema left) (second : HasState document page schema right)
    (same : document.labelOf left.owner = document.labelOf right.owner) :
    left.owner = right.owner := by
  obtain ⟨holder, found, _, _⟩ := first.suits holds
  obtain ⟨other, present, _, _⟩ := second.suits holds
  rw [label_of_found found, label_of_found present] at same
  have own : holder.id = left.owner := holds.stored found
  rw [← own] at found ⊢
  exact holds.valid.named found present same

theorem HasState.pair_of_owner (holds : document.HoldsPage page) {left right : StateKey}
    (first : HasState document page schema left) (second : HasState document page schema right)
    (same : left.owner = right.owner) : PageView.isPair left = PageView.isPair right := by
  obtain ⟨holder, found, _, suits⟩ := first.suits holds
  rw [same] at found
  rw [Bool.eq_iff_iff, suits.pair_iff, (second.suits_holder holds found).pair_iff]

theorem HasState.eq_of_path (holds : document.HoldsPage page) {left right : StateKey}
    (first : HasState document page schema left) (second : HasState document page schema right)
    (same : document.pathOf left = document.pathOf right) : left = right := by
  have label : document.labelOf left.owner = document.labelOf right.owner := by
    rw [← path_head, ← path_head, same]
  have slot : left.second = right.second := by
    rw [← path_tail document left, ← path_tail document right, same]
  have owner := first.owner_of_label holds second label
  obtain ⟨holder, found, _, suits⟩ := first.suits holds
  exact suits.eq_of_second (second.suits_holder holds (owner ▸ found)) owner slot

theorem paths_apart (holds : document.HoldsPage page) :
    (PageView.of document page schema).PathsApart where
  once := fun left inside right within same =>
    HasState.eq_of_path holds ((mem_keys_iff holds).1 inside) ((mem_keys_iff holds).1 within) same
  unmixed := fun left inside right within same => by
    have first := (mem_keys_iff holds).1 inside
    have second := (mem_keys_iff holds).1 within
    exact first.pair_of_owner holds second (first.owner_of_label holds second same)

theorem exposes_contents (holds : document.HoldsPage page) {order : List StateKey}
    (ended : (PageView.of document page schema).graph.order = .ok order) (names : PageNames) :
    Exposes document page schema
      (order.filterMap ((PageView.of document page schema).declaration? names))
      ((PageView.of document page schema).scopeContents names).entries where
  ordered := SortedMap.sorted _
  grouped := fun _ _ listed => (paths_apart holds).object_proper listed
  path := fun _ state => ⟨_, (found_at_iff holds state).2 rfl, fun _ found =>
    (found_at_iff holds state).1 found⟩
  owner := (pairs_end holds ended).ends
  every := by
    intro key path state found
    refine ⟨_, declared_of_state holds ended names state, fun code => ?_⟩
    rw [(paths_apart holds).holds_iff, (found_at_iff holds state).1 found]
    have inside := (mem_keys_iff holds).2 state
    constructor
    · intro held
      obtain ⟨other, within, same, rfl⟩ := held
      rw [(paths_apart holds).once other within key inside same]
    · intro same
      exact ⟨key, inside, rfl, same.symm⟩
  only := by
    intro path code held
    obtain ⟨key, inside, rfl, _⟩ := (paths_apart holds).holds_iff.1 held
    have state := (mem_keys_iff holds).1 inside
    refine ⟨key, ⟨state, (found_at_iff holds state).2 rfl⟩, ?_⟩
    intro other again
    exact again.1.eq_of_path holds state ((found_at_iff holds again.1).1 again.2).symm

/-- Scripts find the state of a page, each piece at one path of the object against which they run,
and nothing else. -/
theorem runtime_scope_exposes_state (valid : document.Valid) {id : NodeId}
    {bindings : PageBindings} (resolved : document.bindings id schema scope = .ok bindings) :
    ∃ page fields, document.get? id = some page ∧ page.type = .page ∧
      read? (PageCompiler.scopeLiteral bindings.runtimeScope) = some fields ∧
      Exposes document page schema bindings.declarations fields := by
  obtain ⟨page, order, holds, own, ended, view⟩ := bindings_ok valid resolved
  have apart : (PageView.of document page schema).PathsApart := paths_apart holds
  rw [PageView.bindings, ended] at view
  cases view
  exact ⟨page, _, own ▸ holds.found, holds.type, apart.read_runtime_scope scope,
    exposes_contents holds ended _⟩

theorem runtime_scope_exposes_state_sample :
    sharingPage.Valid ∧ ∃ page bindings fields,
      sharingPage.bindings "p" Catalog.builtin.schema Scope.root = .ok bindings ∧
      read? (PageCompiler.scopeLiteral bindings.runtimeScope) = some fields ∧
      fields = [("a", .object [("value", "count")]), ("b", .object [("value", "count")]),
        ("c", .object [("value", "cValue")]), ("home", .object [("count", "count")]),
        ("sum", .name "sum")] ∧
      Exposes sharingPage page Catalog.builtin.schema bindings.declarations fields := by
  have valid : sharingPage.Valid := valid_run (valid_of_root "r") _
  have shown : (sharingPage.bindings "p" Catalog.builtin.schema Scope.root).map
      (fun bindings => read? (PageCompiler.scopeLiteral bindings.runtimeScope)) =
        .ok (some [("a", .object [("value", "count")]), ("b", .object [("value", "count")]),
          ("c", .object [("value", "cValue")]), ("home", .object [("count", "count")]),
          ("sum", .name "sum")]) := by
    decide +kernel
  obtain ⟨bindings, resolved, read⟩ := Outcome.map_eq_ok.1 shown
  obtain ⟨page, fields, _, _, again, exposes⟩ := runtime_scope_exposes_state valid resolved
  have same := Option.some.inj (again.symm.trans read)
  exact ⟨valid, page, bindings, fields, resolved, again, same, exposes⟩

end Document

end PageBuilder
