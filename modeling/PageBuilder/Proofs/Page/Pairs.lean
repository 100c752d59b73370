import PageBuilder.Proofs.Page.Props
import PageBuilder.Proofs.Page.Sources

/-!
Pairs that are shared. The way along bindings of controlled props ends at one owner, the owner is
declared once, and all that shares its pair or reads it has the names of that declaration.
-/

namespace PageBuilder

open Relation (TransGen)

theorem PageNames.Apart.disjoint {start : Scope} {names : PageNames} (apart : Apart start names)
    {left right : StateKey × StateNames} (first : left ∈ names.given) (second : right ∈ names.given)
    (other : left.1 ≠ right.1) : left.2.all.Disjoint right.2.all := by
  have pairs := (List.nodup_flatMap.1 apart.adds.apart).2
  have symmetric : Std.Symm (Function.onFun List.Disjoint
      fun entry : StateKey × StateNames => entry.2.all) :=
    ⟨fun _ _ disjoint _ first second => disjoint second first⟩
  apply pairs.forall first second
  intro same
  exact other (congrArg Prod.fst same)

namespace Document

section Pairs

variable (document : Document) (page : Node) (schema : PropSchema)

/-- Every way along shared pairs ends, and at one owner. -/
structure PairsEnd : Prop where
  onward : ∀ key left right, Shares document page schema key left →
    Shares document page schema key right → left = right
  straight : ∀ key, ¬TransGen (Shares document page schema) key key
  ends : ∀ key, HasState document page schema key → ∃! owner, OwnedBy document page schema key owner

/-- State has the names that were given to its owner, in its declaration and wherever it is read. -/
structure NamedByOwner (bindings : PageBindings) (given : StateKey → StateNames) : Prop where
  same : ∀ key owner, OwnedBy document page schema key owner → given key = given owner
  apart : ∀ left right first second, OwnedBy document page schema left first →
    OwnedBy document page schema right second → first ≠ second →
    (given left).all.Disjoint (given right).all
  distinct : ∀ key, HasState document page schema key → (given key).all.Nodup
  once : ∀ owner, OwnedBy document page schema owner owner →
    (bindings.declarations.map StateDeclaration.key).count owner = 1
  declared : ∀ declaration ∈ bindings.declarations,
    OwnedBy document page schema declaration.key declaration.key ∧
      declaration.names = given declaration.key
  read : ∀ key names, DeclaredAs document page schema bindings.declarations key names ↔
    HasState document page schema key ∧ names = given key
  controlled : ∀ element component prop, Controls document page schema element component prop →
    ∃ props, bindings.props.get? element.id = some props ∧
      props.get? prop = some (.controlled (given (.prop element.id prop)).value
        (given (.prop element.id prop)).setter)

/-- What is read in props, in declarations and by scripts is declared state. -/
structure ReadsDeclared (bindings : PageBindings) : Prop where
  props : ∀ shown props, bindings.props.get? shown = some props →
    ∃ element, document.Shown page.id element ∧ element.id = shown ∧
      ∀ prop resolved, props.get? prop = some resolved →
        PropShown document page schema bindings.declarations element prop resolved
  sources : ∀ declaration ∈ bindings.declarations,
    MadeFrom document page schema bindings.declarations declaration.key declaration.source
  scope : ∀ entry ∈ bindings.runtimeScope,
    ScopeEntry document page schema bindings.declarations entry.2

end Pairs

variable {document : Document} {page : Node} {schema : PropSchema} {order : List StateKey}
  {scope : Scope}

theorem pairs_end (holds : document.HoldsPage page)
    (ended : (PageView.of document page schema).graph.order = .ok order) :
    PairsEnd document page schema where
  onward := fun _ _ _ left right => left.unique holds right
  straight := by
    intro key circle
    have more : Shares document page schema ≤ Reads document page schema :=
      fun _ _ shares => .shared shares
    have reads : TransGen (Reads document page schema) key key :=
      TransGen.mono more key key circle
    obtain ⟨cycle, failed⟩ := (graph_order_fails_iff holds).2 ⟨key, reads⟩
    rw [ended] at failed
    cases failed
  ends := by
    intro key state
    obtain ⟨owner, _, owned⟩ := owner_of_order holds ended state
    exact ⟨owner, owned, fun other again => again.unique holds owned⟩

theorem OwnedBy.end_self {key owner : StateKey} (owned : OwnedBy document page schema key owner) :
    OwnedBy document page schema owner owner :=
  .self owned.state owned.owns

theorem names_of_owner (holds : document.HoldsPage page)
    (ended : (PageView.of document page schema).graph.order = .ok order) (names : PageNames)
    {key owner : StateKey} (owned : OwnedBy document page schema key owner) :
    names.of (PageView.of document page schema) key =
      names.of (PageView.of document page schema) owner := by
  rw [PageNames.of, PageNames.of, (owner_iff holds ended).2 owned,
    (owner_iff holds ended).2 owned.end_self]

theorem declared_once (holds : document.HoldsPage page) (names : PageNames)
    (ended : (PageView.of document page schema).graph.order = .ok order) {owner : StateKey}
    (owned : OwnedBy document page schema owner owner) :
    ((order.filterMap ((PageView.of document page schema).declaration? names)).map
      StateDeclaration.key).count owner = 1 := by
  apply List.count_eq_one_of_mem
  · rw [keys_of_declarations]
    exact (graph_order_ok holds ended).1.nodup.filter _
  · exact (mem_declared_keys_iff holds ended).2 ⟨owned.state, owned.owns⟩

theorem declared_by_owner (holds : document.HoldsPage page) (names : PageNames)
    {declaration : StateDeclaration} (member : declaration ∈
      order.filterMap ((PageView.of document page schema).declaration? names)) :
    OwnedBy document page schema declaration.key declaration.key ∧
      declaration.names = names.of (PageView.of document page schema) declaration.key := by
  obtain ⟨key, _, made⟩ := List.mem_filterMap.1 member
  obtain ⟨state, owns⟩ := (declared_iff holds names).1 ⟨declaration, made⟩
  obtain ⟨same, given⟩ := key_of_declaration made
  rw [same]
  exact ⟨.self state owns, given⟩

theorem controlled_shown (holds : document.HoldsPage page) (names : PageNames) {element : Node}
    {component prop : String} (controls : Controls document page schema element component prop) :
    ∃ props, ((PageView.of document page schema).props names).get? element.id = some props ∧
      props.get? prop = some ((PageView.of document page schema).controlledProp names
        (.prop element.id prop)) :=
  ⟨_, props_of_shown holds names controls.shown,
    (element_prop_iff holds names controls.shown).2 (Or.inl ⟨⟨component, controls⟩, rfl⟩)⟩

theorem named_by_owner (holds : document.HoldsPage page) (scope : Scope)
    (ended : (PageView.of document page schema).graph.order = .ok order)
    {bindings : PageBindings}
    (resolved : (PageView.of document page schema).bindings scope = .ok bindings) :
    NamedByOwner document page schema bindings
      ((PageNames.ofView (PageView.of document page schema) scope).of
        (PageView.of document page schema)) := by
  have given := @names_of_state document page schema holds scope order ended
  have apart := PageNames.apart_of_view (PageView.of document page schema) scope
  rw [PageView.bindings, ended] at resolved
  cases resolved
  generalize PageNames.ofView (PageView.of document page schema) scope = names at given apart
  constructor
  · intro key owner owned
    exact names_of_owner holds ended names owned
  · intro left right first second one other different
    exact apart.disjoint (given one) (given other) different
  · intro key state
    obtain ⟨owner, _, owned⟩ := owner_of_order holds ended state
    exact (List.nodup_flatMap.1 apart.adds.apart).1 _ (given owned)
  · intro owner owned
    exact declared_once holds names ended owned
  · intro declaration member
    exact declared_by_owner holds names member
  · intro key names
    exact declared_as_iff holds ended _
  · intro element component prop controls
    exact controlled_shown holds names controls

theorem reads_declared (holds : document.HoldsPage page)
    (ended : (PageView.of document page schema).graph.order = .ok order)
    {bindings : PageBindings}
    (resolved : (PageView.of document page schema).bindings scope = .ok bindings) :
    ReadsDeclared document page schema bindings := by
  rw [PageView.bindings, ended] at resolved
  cases resolved
  constructor
  · intro shown props found
    exact props_shown holds ended _ found
  · intro declaration member
    exact declaration_made_from holds ended scope member
  · intro entry listed
    exact runtime_scope_entries holds ended _ listed

/-- Where the bindings of a page are found, every way along shared pairs ends at one owner, and all
that leads there has the names of the one declaration of that owner, which nothing else has. -/
theorem shared_pairs_have_owner (valid : document.Valid) {id : NodeId} {bindings : PageBindings}
    (resolved : document.bindings id schema scope = .ok bindings) :
    ∃ page given, document.get? id = some page ∧ page.type = .page ∧
      PairsEnd document page schema ∧ NamedByOwner document page schema bindings given ∧
      ReadsDeclared document page schema bindings := by
  obtain ⟨page, order, holds, own, ended, view⟩ := bindings_ok valid resolved
  have named := named_by_owner holds scope ended view
  exact ⟨page, _, own ▸ holds.found, holds.type, pairs_end holds ended, named,
    reads_declared holds ended view⟩

theorem shared_pairs_have_owner_sample :
    sharingPage.Valid ∧ ∃ page bindings given,
      sharingPage.bindings "p" Catalog.builtin.schema Scope.root = .ok bindings ∧
      PairsEnd sharingPage page Catalog.builtin.schema ∧
      NamedByOwner sharingPage page Catalog.builtin.schema bindings given ∧
      given (.prop "a" "value") = given (.pageSlot "p" "count") ∧
      (given (.prop "a" "value")).all.Disjoint (given (.prop "c" "value")).all := by
  have valid : sharingPage.Valid := valid_run (valid_of_root "r") _
  have keys : (sharingPage.bindings "p" Catalog.builtin.schema Scope.root).map
      (fun bindings => bindings.declarations.map StateDeclaration.key) =
        .ok [.pageSlot "p" "count", .node "s", .prop "c" "value"] := by
    decide +kernel
  have owners : (sharingPage.get? "p").map (fun page =>
      ((PageView.of sharingPage page Catalog.builtin.schema).owner? (.prop "a" "value"),
        (PageView.of sharingPage page Catalog.builtin.schema).owner? (.prop "c" "value"))) =
      some (some (.pageSlot "p" "count"), some (.prop "c" "value")) := by
    decide +kernel
  obtain ⟨bindings, resolved, _⟩ := Outcome.map_eq_ok.1 keys
  obtain ⟨page, given, found, type, ends, named, _⟩ := shared_pairs_have_owner valid resolved
  have own : page.id = "p" := valid.stored found
  have holds : sharingPage.HoldsPage page := ⟨valid, own ▸ found, type⟩
  rw [found, Option.map_some, Option.some.injEq, Prod.mk.injEq] at owners
  have shared := owned_by_of_owner holds owners.1
  refine ⟨valid, page, bindings, given, resolved, ends, named, named.same _ _ shared, ?_⟩
  apply named.apart _ _ _ _ shared (owned_by_of_owner holds owners.2)
  intro same
  cases same

end Document

end PageBuilder
