import PageBuilder.Proofs.Component.Codec
import PageBuilder.Proofs.Page.MappedPage

/-!
Pages under other default values. These count only where a pair starts, so a page has the same
bindings but for such declarations. Where defaults of null are dropped, the pairs that started with
null start with nothing.
-/

namespace PageBuilder

def StateEntry.isOwned : StateEntry → Bool
  | .owned .. => true
  | _ => false

def PropSchema.withDefaults (schema : PropSchema)
    (default? : String → String → Option Json) : PropSchema :=
  { schema with default? }

def PageView.withDefaults (view : PageView) (default? : String → String → Option Json) : PageView :=
  { view with schema := view.schema.withDefaults default? }

namespace PageView

variable (view : PageView) (default? : String → String → Option Json)

theorem owner_of_defaults : (view.withDefaults default?).owner? = view.owner? := by
  have within (steps : Nat) (key : StateKey) :
      (view.withDefaults default?).ownerWithin? steps key = view.ownerWithin? steps key := by
    induction steps generalizing key with
    | zero => rfl
    | succ steps ih =>
        have entries : (view.withDefaults default?).entryOf? = view.entryOf? := rfl
        rw [ownerWithin?, ownerWithin?, entries]
        simp only [ih]
  funext key
  exact within _ key

theorem names_of_defaults (names : PageNames) :
    names.of (view.withDefaults default?) = names.of view := by
  funext key
  rw [PageNames.of, PageNames.of, owner_of_defaults]

theorem given_of_defaults (scope : Scope) :
    PageNames.ofView (view.withDefaults default?) scope = PageNames.ofView view scope := by
  have use : PageNames.use (view.withDefaults default?) = PageNames.use view := by
    funext names key
    rw [PageNames.use, PageNames.use, owner_of_defaults]
    rfl
  rw [PageNames.ofView, PageNames.ofView, use]
  rfl

theorem value_code_of_defaults (names : PageNames) :
    (view.withDefaults default?).valueCode names = view.valueCode names := by
  have reference : (view.withDefaults default?).referenceCode names = view.referenceCode names := by
    funext reference
    rw [referenceCode, referenceCode, names_of_defaults]
    rfl
  have part : (view.withDefaults default?).partCode names = view.partCode names := by
    funext format part
    cases part with
    | interpolation found => rw [partCode, partCode, reference]
    | text chars | invalid written fault => rfl
  funext value
  cases value with
  | binding node slot =>
      rw [valueCode, valueCode, names_of_defaults]
      rfl
  | bound text format => rw [valueCode, valueCode, templateCode, templateCode, part]
  | const value | script text | secret reference => rfl

theorem props_of_defaults (names : PageNames) :
    (view.withDefaults default?).props names = view.props names := by
  have controlled :
      (view.withDefaults default?).controlledProp names = view.controlledProp names := by
    funext key
    rw [controlledProp, controlledProp, names_of_defaults]
  have value : (view.withDefaults default?).valueProp names = view.valueProp names := by
    funext value
    cases value with
    | script text => rfl
    | const | binding | bound | secret => simp only [valueProp, value_code_of_defaults]
  have given : (view.withDefaults default?).givenProp names = view.givenProp names := by
    funext element entry
    rw [givenProp, givenProp, controlled, value]
    rfl
  have element : (view.withDefaults default?).elementProps names = view.elementProps names := by
    funext element
    rw [elementProps, elementProps, given, controlled]
    rfl
  rw [props, props, element]
  rfl

theorem runtime_scope_of_defaults (names : PageNames) :
    (view.withDefaults default?).runtimeScope names = view.runtimeScope names := by
  have direct : (view.withDefaults default?).directEntries names = view.directEntries names := by
    rw [directEntries, directEntries, names_of_defaults]
    rfl
  have group : (view.withDefaults default?).groupOf names = view.groupOf names := by
    funext owner
    rw [groupOf, groupOf, names_of_defaults]
    rfl
  rw [runtimeScope, runtimeScope, direct, groupEntries, groupEntries, group]
  rfl

theorem values_of_defaults (names : PageNames) :
    names.valuesOf (view.withDefaults default?) = names.valuesOf view := by
  funext keys
  rw [PageNames.valuesOf, PageNames.valuesOf, names_of_defaults]

theorem source_of_defaults (names : PageNames) {entry : StateEntry}
    (other : entry.isOwned = false) :
    (view.withDefaults default?).source? names entry = view.source? names entry := by
  cases entry with
  | node node =>
      rw [source?, source?, nodeSource, nodeSource, paramCodes, paramCodes,
        value_code_of_defaults, values_of_defaults]
      rfl
  | owned element component prop value => cases other
  | computed element prop value =>
      rw [source?, source?, value_code_of_defaults, values_of_defaults]
      rfl
  | pageSlot | shared => rfl

end PageView

/-- The pair of a controlled prop that started with null starts with nothing. -/
inductive StateDeclaration.Fades : StateDeclaration → StateDeclaration → Prop
  | same (declaration : StateDeclaration) : Fades declaration declaration
  | null (key : StateKey) (label : String) (names : StateNames) :
      Fades ⟨key, label, names, .controlledPair (some Json.null.text)⟩
        ⟨key, label, names, .controlledPair none⟩

/-- The default values that are read back. -/
def PropSchema.readDefault? (schema : PropSchema) (component prop : String) : Option Json :=
  (schema.default? component prop).bind Json.unlessNull

def PropSchema.withoutNulls (schema : PropSchema) : PropSchema :=
  schema.withDefaults schema.readDefault?

theorem PageView.of_without_nulls (document : Document) (page : Node) (schema : PropSchema) :
    PageView.of document page schema.withoutNulls =
      (PageView.of document page schema).withDefaults schema.readDefault? := rfl

namespace Document

section Declarations

variable (document : Document) (page : Node) (schema : PropSchema)

/-- A controlled prop without a value, of which the default is null. -/
structure NullStart (element : Node) (component prop : String) : Prop where
  controls : Controls document page schema element component prop
  default : schema.default? component prop = some .null
  unset : ∀ value, ¬element.Gives prop value

def StartsNull (key : StateKey) : Prop :=
  ∃ element component prop, key = .prop element.id prop ∧
    NullStart document page schema element component prop

end Declarations

variable {document : Document} {page : Node} {schema : PropSchema} {key : StateKey}

open PageView (ControlledSlot)

/-- Which state of the page that is can be told from any element with its key. -/
theorem StartsNull.of_controls (holds : document.HoldsPage page) {element : Node}
    {component prop : String} (controls : Controls document page schema element component prop)
    (starts : StartsNull document page schema (.prop element.id prop)) :
    NullStart document page schema element component prop := by
  obtain ⟨other, named, name, same, start⟩ := starts
  obtain ⟨id, rfl⟩ := StateKey.prop.inj same
  have own := controls.shown.eq_of_same_id holds.stored start.controls.shown id
  subst own
  have component : some component = some named := controls.shows.symm.trans start.controls.shows
  cases component
  exact start

theorem unset_source_fades (holds : document.HoldsPage page) (names : PageNames) {element : Node}
    {component prop : String} (controls : Controls document page schema element component prop)
    (unset : ∀ value, ¬element.Gives prop value) :
    ¬StartsNull document page schema (.prop element.id prop) ∧
        (PageView.of document page schema.withoutNulls).source? names
            (.owned element component prop none) =
          (PageView.of document page schema).source? names (.owned element component prop none) ∨
      StartsNull document page schema (.prop element.id prop) ∧
        (PageView.of document page schema).source? names (.owned element component prop none) =
          some (.controlledPair (some Json.null.text)) ∧
        (PageView.of document page schema.withoutNulls).source? names
            (.owned element component prop none) =
          some (.controlledPair none) := by
  have initial (schema : PropSchema) :
      (PageView.of document page schema).source? names (.owned element component prop none) =
        some (.controlledPair ((schema.default? component prop).map Json.text)) := rfl
  have later : schema.withoutNulls.default? component prop =
      (schema.default? component prop).bind Json.unlessNull := rfl
  have default_eq (starts : StartsNull document page schema (.prop element.id prop)) :
      schema.default? component prop = some .null := (starts.of_controls holds controls).default
  rw [initial, initial, later]
  cases held : schema.default? component prop with
  | none =>
      refine Or.inl ⟨fun starts => ?_, rfl⟩
      cases held.symm.trans (default_eq starts)
  | some value =>
      rcases value.unless_null_cases with ⟨rfl, lost⟩ | ⟨other, kept⟩
      · refine Or.inr ⟨⟨element, component, prop, rfl, controls, held, unset⟩, rfl, ?_⟩
        rw [Option.bind_some, lost, Option.map_none]
      · refine Or.inl ⟨fun starts => ?_, ?_⟩
        · exact other (Option.some.inj (held.symm.trans (default_eq starts)))
        · rw [Option.bind_some, kept]

/-- The source of a piece of state changes where it is a default of null, and only there. -/
theorem source_fades (holds : document.HoldsPage page) (names : PageNames) {entry : StateEntry}
    (entered : Entered document page schema key entry) :
    ¬StartsNull document page schema key ∧
        (PageView.of document page schema.withoutNulls).source? names entry =
          (PageView.of document page schema).source? names entry ∨
      StartsNull document page schema key ∧
        (PageView.of document page schema).source? names entry =
          some (.controlledPair (some Json.null.text)) ∧
        (PageView.of document page schema.withoutNulls).source? names entry =
          some (.controlledPair none) := by
  have kept {entry : StateEntry} (other : entry.isOwned = false) :
      (PageView.of document page schema.withoutNulls).source? names entry =
        (PageView.of document page schema).source? names entry := by
    rw [PageView.of_without_nulls, PageView.source_of_defaults _ _ names other]
  cases entered with
  | slot held listed => exact Or.inl ⟨fun ⟨_, _, _, same, _⟩ => (nomatch same), kept rfl⟩
  | node found child type => exact Or.inl ⟨fun ⟨_, _, _, same, _⟩ => (nomatch same), kept rfl⟩
  | @prop element component prop controls =>
      rw [ControlledSlot.entry]
      cases given : (ControlledSlot.mk element component prop).value? with
      | none =>
          apply unset_source_fades holds names controls
          intro value gives
          cases given.symm.trans (value_eq_some_iff.2 gives)
      | some value =>
          have set : ¬StartsNull document page schema (.prop element.id prop) := fun starts =>
            (starts.of_controls holds controls).unset value (value_eq_some_iff.1 given)
          refine Or.inl ⟨set, ?_⟩
          cases value with
          | const | script | secret => rfl
          | bound text format => exact kept rfl
          | binding id slot =>
              dsimp only
              split
              · exact kept rfl
              · exact kept rfl

section Declarations

variable (holds : document.HoldsPage page) (names : PageNames)

include holds

/-- State is declared as before, or its pair fades. -/
theorem declaration_fades (schema : PropSchema) (key : StateKey) :
    ¬StartsNull document page schema key ∧
        (PageView.of document page schema.withoutNulls).declaration? names key =
          (PageView.of document page schema).declaration? names key ∨
      StartsNull document page schema key ∧ ∃ label given,
        (PageView.of document page schema).declaration? names key =
            some ⟨key, label, given, .controlledPair (some Json.null.text)⟩ ∧
          (PageView.of document page schema.withoutNulls).declaration? names key =
            some ⟨key, label, given, .controlledPair none⟩ := by
  have entries : (PageView.of document page schema.withoutNulls).entryOf? =
      (PageView.of document page schema).entryOf? := rfl
  have labels : (PageView.of document page schema.withoutNulls).label =
      (PageView.of document page schema).label := rfl
  have given : names.of (PageView.of document page schema.withoutNulls) =
      names.of (PageView.of document page schema) := by
    rw [PageView.of_without_nulls, PageView.names_of_defaults]
  unfold PageView.declaration?
  rw [entries, labels, given]
  cases found : (PageView.of document page schema).entryOf? key with
  | none =>
      refine Or.inl ⟨fun starts => ?_, rfl⟩
      obtain ⟨element, component, prop, rfl, start⟩ := starts
      rw [(entry_iff holds).2 (.prop start.controls)] at found
      cases found
  | some entry =>
      rcases source_fades holds names ((entry_iff holds).1 found) with ⟨other, same⟩ | changed
      · refine Or.inl ⟨other, ?_⟩
        dsimp only [bind, Option.bind]
        rw [same]
      · obtain ⟨starts, before, after⟩ := changed
        refine Or.inr ⟨starts, (PageView.of document page schema).label key,
          names.of (PageView.of document page schema) key, ?_, ?_⟩
        · dsimp only [bind, Option.bind]
          rw [before]
        · dsimp only [bind, Option.bind]
          rw [after]

theorem declarations_fade (keys : List StateKey) : List.Forall₂ StateDeclaration.Fades
    (keys.filterMap ((PageView.of document page schema).declaration? names))
    (keys.filterMap ((PageView.of document page schema.withoutNulls).declaration? names)) := by
  induction keys with
  | nil => exact .nil
  | cons key rest ih =>
      rw [List.filterMap_cons, List.filterMap_cons]
      rcases declaration_fades holds names schema key with ⟨_, same⟩ | changed
      · rw [same]
        split
        · exact ih
        · exact .cons (.same _) ih
      · obtain ⟨_, label, given, before, after⟩ := changed
        rw [before, after]
        exact .cons (.null key label given) ih

theorem declarations_kept_iff {keys : List StateKey} :
    keys.filterMap ((PageView.of document page schema.withoutNulls).declaration? names) =
        keys.filterMap ((PageView.of document page schema).declaration? names) ↔
      ∀ key ∈ keys, ¬StartsNull document page schema key := by
  constructor
  · intro same key member starts
    rcases declaration_fades holds names schema key with ⟨other, _⟩ | changed
    · exact other starts
    · obtain ⟨_, label, given, before, after⟩ := changed
      have listed := List.mem_filterMap.2 ⟨key, member, after⟩
      rw [same] at listed
      -- A declaration tells its key, so the faded one cannot be that of other state.
      obtain ⟨again, _, made⟩ := List.mem_filterMap.1 listed
      obtain ⟨rfl, _⟩ := key_of_declaration made
      rw [before] at made
      cases made
  · intro unaffected
    refine List.filterMap_congr fun key member => ?_
    rcases declaration_fades holds names schema key with ⟨_, same⟩ | changed
    · exact same
    · exact absurd changed.1 (unaffected key member)

/-- The bindings of a page differ in the declarations of such pairs, if the page has any. -/
theorem bindings_fade (schema : PropSchema) (scope : Scope) :
    (∃ fault, (PageView.of document page schema).bindings scope = .error fault ∧
        (PageView.of document page schema.withoutNulls).bindings scope = .error fault) ∨
      ∃ bindings others, (PageView.of document page schema).bindings scope = .ok bindings ∧
        (PageView.of document page schema.withoutNulls).bindings scope =
            .ok { bindings with declarations := others } ∧
          List.Forall₂ StateDeclaration.Fades bindings.declarations others ∧
          (others = bindings.declarations ↔ ∀ key, ¬StartsNull document page schema key) := by
  have graph : (PageView.of document page schema.withoutNulls).graph =
      (PageView.of document page schema).graph := rfl
  have given : PageNames.ofView (PageView.of document page schema.withoutNulls) scope =
      PageNames.ofView (PageView.of document page schema) scope := by
    rw [PageView.of_without_nulls, PageView.given_of_defaults]
  rw [PageView.bindings, PageView.bindings, graph]
  cases ended : (PageView.of document page schema).graph.order with
  | error cycle => exact Or.inl ⟨_, rfl, rfl⟩
  | ok order =>
      dsimp only
      rw [given]
      generalize PageNames.ofView (PageView.of document page schema) scope = names
      have props : (PageView.of document page schema.withoutNulls).props names =
          (PageView.of document page schema).props names := by
        rw [PageView.of_without_nulls, PageView.props_of_defaults]
      have runtime : (PageView.of document page schema.withoutNulls).runtimeScope names =
          (PageView.of document page schema).runtimeScope names := by
        rw [PageView.of_without_nulls, PageView.runtime_scope_of_defaults]
      refine Or.inr ⟨_, _, rfl, ?_, declarations_fade holds names order, ?_⟩
      · rw [props, runtime]
        rfl
      · refine (declarations_kept_iff holds names).trans
          ⟨fun unaffected key starts => ?_, fun unaffected key _ => unaffected key⟩
        refine unaffected key (((graph_order_ok holds ended).2 key).2 ?_) starts
        obtain ⟨element, component, prop, rfl, start⟩ := starts
        exact .prop start.controls

end Declarations

end Document

end PageBuilder
