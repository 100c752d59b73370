import PageBuilder.Proofs.Page.Bindings
import PageBuilder.Proofs.ReadGraph.Built

/-!
What declarations are made of. Their code is told by the state that it reads, as in what the page
shows, and a memo lists the names of just that state, in order of first use.
-/

namespace PageBuilder.Document

section Uses

variable (document : Document) (page : Node) (schema : PropSchema)

/-- The state that a part of a template uses. -/
inductive PartUses : TemplatePart → List StateKey → Prop
  | text (chars : List Char) : PartUses (.text chars) []
  | state {reference : Reference} {key : StateKey} {path : List PathSegment}
      (refers : Refers document page schema reference key path) :
      PartUses (.interpolation reference) [key]
  | nothing {reference : Reference}
      (unknown : ∀ key path, ¬Refers document page schema reference key path) :
      PartUses (.interpolation reference) []
  | invalid (written : List Char) (fault : ReferenceFault) : PartUses (.invalid written fault) []

/-- The state that a value uses, in order and with repetitions, whatever its format. -/
inductive ValueUses : Bindable → List StateKey → Prop
  | const (value : Json) : ValueUses (.const value) []
  | state {id : NodeId} {slot : String} {key : StateKey}
      (state : HasState document page schema key) (address : key.address = (id, slot)) :
      ValueUses (.binding id slot) [key]
  | nothing {id : NodeId} {slot : String}
      (unknown : ∀ key, HasState document page schema key → key.address ≠ (id, slot)) :
      ValueUses (.binding id slot) []
  | parts {text : String} {format : Option BoundFormat} {uses : List (List StateKey)}
      (parts : List.Forall₂ (PartUses document page schema) (Template.read text).parts uses) :
      ValueUses (.bound text format) uses.flatten
  | script (text : String) : ValueUses (.script text) []
  | secret (reference : String) : ValueUses (.secret reference) []

def ParamsUse (params : BindableMap) (keys : List StateKey) : Prop :=
  ∃ uses, List.Forall₂ (fun param used => ValueUses document page schema param.2 used)
    params.entries uses ∧ keys = uses.flatten

variable (declarations : List StateDeclaration)

/-- The names of what is used: those of the owners, each once, in order of first use. -/
structure MemoReads (keys : List StateKey) (reads : List String) : Prop where
  firstUses : ∃ names : List StateNames,
    List.Forall₂ (DeclaredAs document page schema declarations) keys names ∧
      reads = (names.map StateNames.value).eraseDups
  once : reads.Nodup
  exact : ∀ name, name ∈ reads ↔ ∃ key ∈ keys, ∃ names,
    DeclaredAs document page schema declarations key names ∧ names.value = name

/-- The code of a value in a declaration, where a script stands for nothing. -/
inductive CodedAs : Bindable → String → Prop
  | shown {value : Bindable} {code : String}
      (shown : ShownAs document page schema declarations value (.code code)) : CodedAs value code
  | script (text : String) : CodedAs (.script text) placeholder

def ParamsCoded (params : BindableMap) (codes : List (String × String)) : Prop :=
  List.Forall₂ (fun param code => code.1 = param.1 ∧
    CodedAs document page schema declarations param.2 code.2) params.entries codes

/-- What a declaration is made of, by the node that its state belongs to. -/
inductive MadeFrom : StateKey → StateSource → Prop
  | slot {slots : SortedMap Json} {slot : String} {value : Json}
      (held : page.kind.state? = some slots) (listed : slots.get? slot = some value) :
      MadeFrom (.pageSlot page.id slot) (.pageSlot value.text)
  | owned {element : Node} {component prop : String} (initial : Option String)
      (controls : Controls document page schema element component prop) :
      MadeFrom (.prop element.id prop) (.controlledPair initial)
  | computed {element : Node} {component prop : String} {value : Bindable} {code : String}
      {keys : List StateKey} {reads : List String}
      (controls : Controls document page schema element component prop)
      (given : element.Gives prop value)
      (coded : CodedAs document page schema declarations value code)
      (uses : ValueUses document page schema value keys)
      (memo : MemoReads document page schema declarations keys reads) :
      MadeFrom (.prop element.id prop) (.computed code reads)
  | derived {node : Node} {params : BindableMap} (code : String)
      {codes : List (String × String)} {keys : List StateKey} {reads : List String}
      (found : document.get? node.id = some node) (kind : node.kind = .derivedState params)
      (coded : ParamsCoded document page schema declarations params codes)
      (uses : ParamsUse document page schema params keys)
      (memo : MemoReads document page schema declarations keys reads) :
      MadeFrom (.node node.id) (.derived code codes reads)
  | query {node : Node} {params : BindableMap} (api : String) {codes : List (String × String)}
      (found : document.get? node.id = some node) (kind : node.kind = .queryState params)
      (coded : ParamsCoded document page schema declarations params codes) :
      MadeFrom (.node node.id) (.query api node.id codes)
  | fetched {node : Node} {params : BindableMap} {codes : List (String × String)}
      (found : document.get? node.id = some node) (kind : node.kind = .fetchedState params)
      (coded : ParamsCoded document page schema declarations params codes) :
      MadeFrom (.node node.id) (.fetched codes)

end Uses

variable {document : Document} {page : Node} {schema : PropSchema} {order : List StateKey}

def partReads (view : PageView) : TemplatePart → List StateKey
  | .interpolation reference => ((view.referenceTarget? reference).map Prod.fst).toList
  | _ => []

theorem part_uses (holds : document.HoldsPage page) (part : TemplatePart) :
    PartUses document page schema part (partReads (PageView.of document page schema) part) := by
  cases part with
  | text chars => exact .text chars
  | invalid written fault => exact .invalid written fault
  | interpolation reference =>
      rw [partReads]
      cases named : (PageView.of document page schema).referenceTarget? reference with
      | some target => exact .state ((reference_target_iff holds).1 named)
      | none =>
          apply PartUses.nothing
          intro key path refers
          rw [(reference_target_iff holds).2 refers] at named
          cases named

theorem template_reads (view : PageView) (parts : List TemplatePart) :
    ((Template.mk parts).references.filterMap fun reference =>
      (view.referenceTarget? reference).map Prod.fst) = (parts.map (partReads view)).flatten := by
  induction parts with
  | nil => rfl
  | cons part rest ih =>
      rw [List.map_cons, List.flatten_cons, ← ih]
      cases part with
      | text | invalid => rfl
      | interpolation reference =>
          rw [partReads, Template.references, List.filterMap_cons]
          dsimp only
          rw [List.filterMap_cons]
          cases (view.referenceTarget? reference).map Prod.fst <;> rfl

theorem value_uses (holds : document.HoldsPage page) (value : Bindable) :
    ValueUses document page schema value
      ((PageView.of document page schema).valueReads value) := by
  cases value with
  | const value => exact .const value
  | script text => exact .script text
  | secret reference => exact .secret reference
  | binding id slot =>
      rw [PageView.valueReads]
      cases named : (PageView.of document page schema).target? id slot with
      | some key =>
          obtain ⟨state, address⟩ := (target_iff holds).1 named
          exact .state state address
      | none =>
          apply ValueUses.nothing
          intro key state address
          rw [(target_iff holds).2 ⟨state, address⟩] at named
          cases named
  | bound text format =>
      rw [PageView.valueReads]
      have reads := template_reads (PageView.of document page schema) (Template.read text).parts
      rw [reads]
      apply ValueUses.parts
      rw [List.forall₂_map_right_iff, List.forall₂_same]
      intro part _
      exact part_uses holds part

theorem params_use (holds : document.HoldsPage page) {node : Node} {params : BindableMap}
    (held : node.kind.params? = some params) :
    ParamsUse document page schema params
      ((PageView.of document page schema).entryReads (.node node)) := by
  refine ⟨params.entries.map fun param =>
    (PageView.of document page schema).valueReads param.2, ?_, ?_⟩
  · rw [List.forall₂_map_right_iff, List.forall₂_same]
    intro param _
    exact value_uses holds param.2
  · rw [PageView.entryReads, PageView.paramsOf, held]
    rfl

theorem OwnedBy.owned_state {key owner : StateKey}
    (owned : OwnedBy document page schema key owner) : HasState document page schema key := by
  rcases Relation.ReflTransGen.cases_head owned.way with same | more
  · exact same ▸ owned.state
  · obtain ⟨next, shares, _⟩ := more
    exact (Reads.shared shares).states.1

theorem declared_as_iff (holds : document.HoldsPage page)
    (ended : (PageView.of document page schema).graph.order = .ok order) (names : PageNames)
    {key : StateKey} {given : StateNames} :
    DeclaredAs document page schema
        (order.filterMap ((PageView.of document page schema).declaration? names)) key given ↔
      HasState document page schema key ∧
        given = names.of (PageView.of document page schema) key := by
  constructor
  · intro declared
    obtain ⟨declaration, member, owned, rfl⟩ := declared
    obtain ⟨key, _, made⟩ := List.mem_filterMap.1 member
    obtain ⟨same, own⟩ := key_of_declaration made
    rw [same] at owned
    have self := (owner_iff holds ended).2 (OwnedBy.self owned.state owned.owns)
    have found := (owner_iff holds ended).2 owned
    refine ⟨owned.owned_state, ?_⟩
    rw [own, PageNames.of, PageNames.of, self, found]
  · intro held
    obtain ⟨state, rfl⟩ := held
    exact declared_of_state holds ended names state

theorem name_of_state (holds : document.HoldsPage page) (scope : Scope)
    (ended : (PageView.of document page schema).graph.order = .ok order) {key : StateKey}
    (state : HasState document page schema key) :
    ((PageNames.ofView (PageView.of document page schema) scope).of
      (PageView.of document page schema) key).value ≠ placeholder := by
  obtain ⟨owner, _, owned⟩ := owner_of_order holds ended state
  have given := names_of_state holds scope ended owned
  have adds := (PageNames.apart_of_view (PageView.of document page schema) scope).adds
  have usable := adds.usable _ (List.mem_flatMap.2 ⟨_, given, List.mem_cons_self⟩)
  intro same
  have free := usable.free
  rw [same] at free
  exact absurd free (by decide)

theorem memo_reads (holds : document.HoldsPage page) (scope : Scope)
    (ended : (PageView.of document page schema).graph.order = .ok order) {keys : List StateKey}
    (states : ∀ key ∈ keys, HasState document page schema key) :
    MemoReads document page schema
      (order.filterMap ((PageView.of document page schema).declaration?
        (PageNames.ofView (PageView.of document page schema) scope))) keys
      ((PageNames.ofView (PageView.of document page schema) scope).valuesOf
        (PageView.of document page schema) keys) := by
  have named : ∀ key ∈ keys, _ := fun key member =>
    name_of_state holds scope ended (states key member)
  generalize PageNames.ofView (PageView.of document page schema) scope = names at named
  have all : names.valuesOf (PageView.of document page schema) keys =
      ((keys.map (names.of (PageView.of document page schema))).map
        StateNames.value).eraseDups := by
    rw [PageNames.valuesOf, List.map_map, List.filter_eq_self.2]
    · rfl
    · intro value member
      obtain ⟨key, inside, rfl⟩ := List.mem_map.1 member
      exact decide_eq_true (named key inside)
  refine ⟨⟨keys.map (names.of (PageView.of document page schema)), ?_, all⟩, ?_, ?_⟩
  · rw [List.forall₂_map_right_iff, List.forall₂_same]
    intro key member
    exact declared_of_state holds ended names (states key member)
  · rw [all]
    exact ReadGraph.erase_dups_nodup _
  · intro name
    rw [all, List.mem_eraseDups, List.map_map, List.mem_map]
    constructor
    · intro used
      obtain ⟨key, member, rfl⟩ := used
      exact ⟨key, member, _, declared_of_state holds ended names (states key member), rfl⟩
    · intro declared
      obtain ⟨key, member, given, declared, rfl⟩ := declared
      obtain ⟨_, rfl⟩ := (declared_as_iff holds ended names).1 declared
      exact ⟨key, member, rfl⟩

theorem states_of_uses {Item : Type} {Uses : Item → List StateKey → Prop}
    (each : ∀ item keys, Uses item keys → ∀ key ∈ keys, HasState document page schema key)
    {items : List Item} {uses : List (List StateKey)} (all : List.Forall₂ Uses items uses) :
    ∀ key ∈ uses.flatten, HasState document page schema key := by
  induction all with
  | nil => exact fun key member => absurd member List.not_mem_nil
  | @cons item keys items uses first rest ih =>
      intro key member
      rcases List.mem_append.1 member with here | later
      · exact each item keys first key here
      · exact ih key later

theorem PartUses.states (part : TemplatePart) (keys : List StateKey)
    (uses : PartUses document page schema part keys) :
    ∀ key ∈ keys, HasState document page schema key := by
  cases uses with
  | text | nothing | invalid => exact fun key member => absurd member List.not_mem_nil
  | state refers =>
      intro key member
      exact List.mem_singleton.1 member ▸ refers.state

theorem ValueUses.states {value : Bindable} {keys : List StateKey}
    (uses : ValueUses document page schema value keys) :
    ∀ key ∈ keys, HasState document page schema key := by
  cases uses with
  | const | nothing | script | secret => exact fun key member => absurd member List.not_mem_nil
  | state state address =>
      intro key member
      exact List.mem_singleton.1 member ▸ state
  | parts parts => exact states_of_uses PartUses.states parts

theorem ParamsUse.states {params : BindableMap} {keys : List StateKey}
    (uses : ParamsUse document page schema params keys) :
    ∀ key ∈ keys, HasState document page schema key := by
  obtain ⟨uses, each, rfl⟩ := uses
  exact states_of_uses (fun param keys used => ValueUses.states used) each

section Reading

variable (holds : document.HoldsPage page)
  (ended : (PageView.of document page schema).graph.order = .ok order)

include holds ended

theorem value_coded (names : PageNames) (value : Bindable) :
    CodedAs document page schema
      (order.filterMap ((PageView.of document page schema).declaration? names)) value
      ((PageView.of document page schema).valueCode names value) := by
  have prop := value_prop holds ended names value
  cases value with
  | script text => exact .script text
  | const | binding | bound | secret => exact .shown prop

theorem params_coded (names : PageNames) {node : Node} {params : BindableMap}
    (held : node.kind.params? = some params) :
    ParamsCoded document page schema
      (order.filterMap ((PageView.of document page schema).declaration? names)) params
      ((PageView.of document page schema).paramCodes names node) := by
  rw [ParamsCoded, PageView.paramCodes, PageView.paramsOf, held, List.forall₂_map_right_iff,
    List.forall₂_same]
  intro param _
  exact ⟨rfl, value_coded holds ended names param.2⟩

variable (scope : Scope)

theorem node_made_from {node : Node} (found : document.get? node.id = some node)
    (type : node.type.isPageState = true) :
    MadeFrom document page schema
      (order.filterMap ((PageView.of document page schema).declaration?
        (PageNames.ofView (PageView.of document page schema) scope))) (.node node.id)
      ((PageView.of document page schema).nodeSource
        (PageNames.ofView (PageView.of document page schema) scope) node) := by
  rw [PageView.nodeSource, Node.type]
  rw [Node.type] at type
  cases kind : node.kind with
  | application | theme | api | page | element =>
      rw [kind] at type
      cases type
  | derivedState params =>
      have held : node.kind.params? = some params := by rw [kind]; rfl
      have uses : ParamsUse document page schema params _ := params_use holds held
      exact .derived _ found kind (params_coded holds ended _ held) uses
        (memo_reads holds scope ended uses.states)
  | queryState params =>
      have held : node.kind.params? = some params := by rw [kind]; rfl
      exact .query _ found kind (params_coded holds ended _ held)
  | fetchedState params =>
      have held : node.kind.params? = some params := by rw [kind]; rfl
      exact .fetched found kind (params_coded holds ended _ held)

theorem declaration_made_from {declaration : StateDeclaration}
    (member : declaration ∈ order.filterMap ((PageView.of document page schema).declaration?
      (PageNames.ofView (PageView.of document page schema) scope))) :
    MadeFrom document page schema
      (order.filterMap ((PageView.of document page schema).declaration?
        (PageNames.ofView (PageView.of document page schema) scope))) declaration.key
      declaration.source := by
  obtain ⟨key, _, made⟩ := List.mem_filterMap.1 member
  obtain ⟨entry, source, found, given, rfl⟩ := declaration_eq_some_iff.1 made
  dsimp only
  cases (entry_iff holds).1 found with
  | slot held listed =>
      cases given
      exact .slot held listed
  | node present child type =>
      cases given
      exact node_made_from holds ended scope present type
  | @prop element component prop controls =>
      rcases @slot_entry_cases document page schema element component prop with
        shared | computed | owned
      · obtain ⟨target, entry⟩ := shared
        rw [entry] at given
        cases given
      · obtain ⟨value, entry, gives⟩ := computed
        rw [entry] at given
        cases given
        have uses : ValueUses document page schema value _ := value_uses holds value
        exact .computed controls gives (value_coded holds ended _ value) uses
          (memo_reads holds scope ended uses.states)
      · obtain ⟨value, entry, _⟩ := owned
        rw [entry] at given
        cases given
        exact .owned _ controls

end Reading

/-- The memos of a page list what their code uses, by the names of its owners and in order of first
use, and nothing else. -/
theorem memos_list_uses (valid : document.Valid) {id : NodeId} {scope : Scope}
    {bindings : PageBindings} (resolved : document.bindings id schema scope = .ok bindings) :
    ∃ page, document.get? id = some page ∧ page.type = .page ∧
      ∀ declaration ∈ bindings.declarations,
        (∀ code codes reads, declaration.source = .derived code codes reads →
          ∃ node params keys, document.get? node.id = some node ∧
            node.kind = .derivedState params ∧ declaration.key = .node node.id ∧
            ParamsCoded document page schema bindings.declarations params codes ∧
            ParamsUse document page schema params keys ∧
            MemoReads document page schema bindings.declarations keys reads) ∧
        ∀ code reads, declaration.source = .computed code reads →
          ∃ element component prop value keys,
            Controls document page schema element component prop ∧ element.Gives prop value ∧
            declaration.key = .prop element.id prop ∧
            CodedAs document page schema bindings.declarations value code ∧
            ValueUses document page schema value keys ∧
            MemoReads document page schema bindings.declarations keys reads := by
  obtain ⟨page, order, holds, own, ended, view⟩ := bindings_ok valid resolved
  rw [PageView.bindings, ended] at view
  cases view
  refine ⟨page, own ▸ holds.found, holds.type, ?_⟩
  intro declaration member
  have made := declaration_made_from holds ended scope member
  generalize declaration.key = key at made ⊢
  generalize declaration.source = source at made ⊢
  constructor
  · intro code codes reads same
    cases made with
    | derived _ found kind coded uses memo =>
        cases same
        exact ⟨_, _, _, found, kind, rfl, coded, uses, memo⟩
    | slot | owned | computed | query | fetched => cases same
  · intro code reads same
    cases made with
    | computed controls given coded uses memo =>
        cases same
        exact ⟨_, _, _, _, _, controls, given, rfl, coded, uses, memo⟩
    | slot | owned | derived | query | fetched => cases same

/-- A page with two slots, a field that shares one of them, and a derived state and a field in it
that use the slots through that field. -/
def sampleMemos : Document :=
  let page : Node :=
    ⟨"p", "home", none, .empty, .page (.ofList [("count", .null), ("limit", .null)])⟩
  let field (id : NodeId) (value : Bindable) : Node :=
    ⟨id, id, none, .ofList [("component", .constString "TextField")],
      .element (.ofList [("value", value)])⟩
  let ratio : Node :=
    ⟨"s", "ratio", none, .empty, .derivedState (.ofList
      [("first", .bound "\x7b\x7bhome.limit\x7d\x7d of \x7b\x7ba.value\x7d\x7d" none),
        ("second", .binding "p" "count"), ("third", .const .null)])⟩
  (ofRoot "r").run
    [.addNode page "r" "pages" none,
      .addNode (field "a" (.binding "p" "count")) "p" "children" none,
      .addNode ratio "p" "state" none,
      .addNode (field "b" (.bound "\x7b\x7bratio[0]\x7d\x7d\x7b\x7ba.value\x7d\x7d" none)) "a"
        "children" none]

theorem memos_list_uses_sample :
    sampleMemos.Valid ∧ ∃ page bindings,
      sampleMemos.bindings "p" Catalog.builtin.schema Scope.root = .ok bindings ∧
      (∃ code codes keys, StateSource.derived code codes ["limit", "count"] ∈
          bindings.declarations.map StateDeclaration.source ∧
        MemoReads sampleMemos page Catalog.builtin.schema bindings.declarations keys
          ["limit", "count"]) ∧
      ∃ code keys, StateSource.computed code ["ratio", "count"] ∈
          bindings.declarations.map StateDeclaration.source ∧
        MemoReads sampleMemos page Catalog.builtin.schema bindings.declarations keys
          ["ratio", "count"] := by
  have valid : sampleMemos.Valid := valid_run (valid_of_root "r") _
  have sources : (sampleMemos.bindings "p" Catalog.builtin.schema Scope.root).map
      (fun bindings => bindings.declarations.map StateDeclaration.source) =
        .ok [.pageSlot "null", .pageSlot "null",
          .derived "() => undefined" [("first", "`$\x7blimit\x7d of $\x7bcount\x7d`"),
            ("second", "count"), ("third", "null")] ["limit", "count"],
          .computed "`$\x7bratio[0]\x7d$\x7bcount\x7d`" ["ratio", "count"]] := by
    decide +kernel
  obtain ⟨bindings, resolved, listed⟩ := Outcome.map_eq_ok.1 sources
  obtain ⟨page, _, _, memos⟩ := memos_list_uses valid resolved
  refine ⟨valid, page, bindings, resolved, ?_, ?_⟩
  · have member : _ ∈ bindings.declarations.map StateDeclaration.source :=
      listed ▸ List.mem_cons_of_mem _ (List.mem_cons_of_mem _ List.mem_cons_self)
    obtain ⟨declaration, inside, source⟩ := List.mem_map.1 member
    obtain ⟨_, _, keys, _, _, _, _, _, memo⟩ := (memos declaration inside).1 _ _ _ source
    exact ⟨_, _, keys, member, memo⟩
  · have member : _ ∈ bindings.declarations.map StateDeclaration.source :=
      listed ▸ List.mem_cons_of_mem _ (List.mem_cons_of_mem _ (List.mem_cons_of_mem _
        List.mem_cons_self))
    obtain ⟨declaration, inside, source⟩ := List.mem_map.1 member
    obtain ⟨_, _, _, _, keys, _, _, _, _, _, memo⟩ := (memos declaration inside).2 _ _ source
    exact ⟨_, keys, member, memo⟩

end PageBuilder.Document
