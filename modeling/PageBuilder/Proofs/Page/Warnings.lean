import PageBuilder.Proofs.Page.Places
import PageBuilder.Proofs.Page.Sources

/-!
Warnings and placeholders. A page looks at each of its values once. What of a value cannot be
resolved leaves one gap in its code, which the placeholder fills, and one warning says where it is.
-/

namespace PageBuilder

/-- A piece of code as it is written, or a gap that the placeholder fills. -/
inductive CodePiece where
  | written (code : String)
  | gap
  deriving DecidableEq

def CodePiece.text (format : BoundFormat) : CodePiece → String
  | .written code => code
  | .gap => PageView.pieceOfCode format placeholder

/-- Code by itself or between backticks, in the pieces that it is put together from. -/
structure PiecedCode where
  format : BoundFormat
  pieces : List CodePiece

namespace PiecedCode

def text (code : PiecedCode) : String :=
  let pieces := String.join (code.pieces.map (CodePiece.text code.format))
  match code.format with
  | .literal => "`" ++ pieces ++ "`"
  | .expression => pieces

def ofPiece (piece : CodePiece) : PiecedCode := ⟨.expression, [piece]⟩

theorem text_of_written (code : String) : (ofPiece (.written code)).text = code :=
  String.empty_append

theorem text_of_gap : (ofPiece .gap).text = placeholder := String.empty_append

def gaps (code : PiecedCode) : Nat := code.pieces.count .gap

end PiecedCode

def StateSource.params : StateSource → List (String × String)
  | .derived _ params _ => params
  | .query _ _ params => params
  | .fetched params => params
  | _ => []

structure ResolvedValue where
  pieces : List CodePiece
  warnings : List Diagnostic

namespace PageView

def partPiece (view : PageView) (names : PageNames) (format : BoundFormat) :
    TemplatePart → CodePiece
  | .text chars => .written (pieceOfText format chars)
  | .interpolation reference =>
      match view.referenceTarget? reference with
      | some _ => .written (pieceOfCode format (view.referenceCode names reference))
      | none => .gap
  | .invalid _ _ => .gap

theorem text_part_piece (view : PageView) (names : PageNames) (format : BoundFormat)
    (part : TemplatePart) :
    (view.partPiece names format part).text format = view.partCode names format part := by
  cases part with
  | text | invalid => rfl
  | interpolation reference =>
      rw [partPiece, partCode, referenceCode]
      cases view.referenceTarget? reference with
      | none => rfl
      | some target => rfl

def valuePieces (view : PageView) (names : PageNames) : Bindable → PiecedCode
  | .const value => .ofPiece (.written value.text)
  | .binding node slot =>
      match view.target? node slot with
      | some key => .ofPiece (.written (names.of view key).value)
      | none => .ofPiece .gap
  | .bound text format =>
      let template := Template.read text
      let format := formatOf template format
      ⟨format, template.parts.map (view.partPiece names format)⟩
  | .script _ => .ofPiece .gap
  | .secret reference => .ofPiece (.written (secretToken reference))

theorem text_value_pieces (view : PageView) (names : PageNames) (value : Bindable) :
    (view.valuePieces names value).text = view.valueCode names value := by
  cases value with
  | const | secret => exact PiecedCode.text_of_written _
  | script => exact PiecedCode.text_of_gap
  | binding node slot =>
      rw [valuePieces, valueCode]
      cases view.target? node slot with
      | none => exact PiecedCode.text_of_gap
      | some key => exact PiecedCode.text_of_written _
  | bound text format =>
      have pieces (format : BoundFormat) :
          CodePiece.text format ∘ view.partPiece names format = view.partCode names format :=
        funext (view.text_part_piece names format)
      rw [valuePieces, valueCode, templateCode, PiecedCode.text]
      dsimp only
      generalize formatOf (Template.read text) format = format
      cases format with
      | literal | expression =>
          dsimp only
          rw [List.map_map, pieces]

/-- A script that is shown has no code of its own: it runs against the page. -/
def shownPieces (view : PageView) (names : PageNames) : Bindable → List CodePiece
  | .script _ => []
  | value => (view.valuePieces names value).pieces

def resolvedAt (view : PageView) (names : PageNames) : ValuePlace → ResolvedValue
  | .param node name value =>
      ⟨(view.valuePieces names value).pieces, view.valueDiagnostics .state node.id name value⟩
  | .stateNode node => ⟨[], view.nodeDiagnostics node⟩
  | .computed element prop value =>
      ⟨(view.valuePieces names value).pieces, view.valueDiagnostics .state element.id prop value⟩
  | .owned element prop _ => ⟨[], [misplacedScript element.id prop]⟩
  | .shown element prop value =>
      ⟨view.shownPieces names value, view.valueDiagnostics .markup element.id prop value⟩

theorem entry_warnings (view : PageView) (names : PageNames) (entry : StateEntry) :
    view.entryDiagnostics entry =
      (entryPlaces entry).flatMap fun place => (view.resolvedAt names place).warnings := by
  cases entry with
  | pageSlot | shared => rfl
  | node node =>
      rw [entryDiagnostics, entryPlaces, List.flatMap_append, List.flatMap_map,
        List.flatMap_singleton]
      rfl
  | computed element prop value => exact (List.flatMap_singleton _ _).symm
  | owned element component prop value =>
      cases value with
      | none => rfl
      | some value =>
          cases value with
          | const | binding | bound | script | secret => rfl

theorem diagnostics_eq (view : PageView) (names : PageNames) :
    view.diagnostics = (view.statePlaces ++ view.shownPlaces).flatMap
      fun place => (view.resolvedAt names place).warnings := by
  rw [diagnostics, List.flatMap_append, statePlaces, List.flatMap_assoc, shownPlaces,
    List.flatMap_map]
  simp only [entry_warnings _ names]
  rfl

theorem params_of_node_source (view : PageView) (names : PageNames) (node : Node) :
    (view.nodeSource names node).params = view.paramCodes names node := by
  rw [nodeSource]
  split
  all_goals rfl

end PageView

namespace Document

section Resolved

variable (document : Document) (page : Node) (schema : PropSchema)

/-- The warnings about a state node itself: a derived state has code, and a query names an api. -/
inductive NodeResolves (node : Node) : List Diagnostic → Prop
  | coded {code : String} (type : node.type = .derivedState)
      (given : node.attributeText? "code" = some code) : NodeResolves node []
  | uncoded (type : node.type = .derivedState) (missing : node.attributeText? "code" = none) :
      NodeResolves node
        [.inProp .incompleteState node.id "code" s!"Derived state `{node.name}` has no code"]
  | asking {api : NodeId} {target : Node} (type : node.type = .queryState)
      (given : node.attributeText? "api" = some api) (found : document.get? api = some target)
      (suits : target.type = .api) : NodeResolves node []
  | silent (type : node.type = .queryState) (missing : node.attributeText? "api" = none) :
      NodeResolves node
        [.inProp .incompleteState node.id "api" s!"Query `{node.name}` has no api"]
  | astray {api : NodeId} (type : node.type = .queryState)
      (given : node.attributeText? "api" = some api)
      (unknown : ∀ target, document.get? api = some target → target.type ≠ .api) :
      NodeResolves node
        [.inProp .unresolvedInterpolation node.id "api"
          s!"Query `{node.name}` uses unknown api {api}"]
  | fetched (type : node.type = .fetchedState) : NodeResolves node []

variable (declarations : List StateDeclaration)

section Value

variable (holder : NodeId) (prop : String)

/-- A part that says nothing resolvable leaves a gap with one warning; any other part is written. -/
inductive PartResolves (format : BoundFormat) : TemplatePart → CodePiece × Option Diagnostic → Prop
  | text (chars : List Char) :
      PartResolves format (.text chars) (.written (PageView.pieceOfText format chars), none)
  | state {reference : Reference} {key : StateKey} {path : List PathSegment} {names : StateNames}
      (refers : Refers document page schema reference key path)
      (declared : DeclaredAs document page schema declarations key names)
      (named : names.value ≠ placeholder) :
      PartResolves format (.interpolation reference)
        (.written (PageView.pieceOfCode format (names.value ++ PathSegment.textOf path)), none)
  | nothing {reference : Reference}
      (unknown : ∀ key path, ¬Refers document page schema reference key path) :
      PartResolves format (.interpolation reference)
        (.gap, some (.inProp .unresolvedInterpolation holder prop
          s!"Can't resolve `\x7b\x7b{reference.text}\x7d\x7d`"))
  | invalid (written : List Char) (fault : ReferenceFault) :
      PartResolves format (.invalid written fault)
        (.gap, some (.inProp .malformedInterpolation holder prop
          s!"Malformed interpolation {String.ofList written}: {fault.message}"))

/-- The code of a value in pieces, and the warnings about it. -/
inductive ValueResolves : Bindable → PiecedCode → List Diagnostic → Prop
  | const (value : Json) : ValueResolves (.const value) (.ofPiece (.written value.text)) []
  | state {id : NodeId} {slot : String} {key : StateKey} {names : StateNames}
      (state : HasState document page schema key) (address : key.address = (id, slot))
      (declared : DeclaredAs document page schema declarations key names)
      (named : names.value ≠ placeholder) :
      ValueResolves (.binding id slot) (.ofPiece (.written names.value)) []
  | nothing {id : NodeId} {slot : String}
      (unknown : ∀ key, HasState document page schema key → key.address ≠ (id, slot)) :
      ValueResolves (.binding id slot) (.ofPiece .gap)
        [.inProp .unresolvedInterpolation holder prop s!"Can't resolve binding to {id}.{slot}"]
  | template {text : String} {format : Option BoundFormat}
      {resolved : List (CodePiece × Option Diagnostic)}
      (parts : List.Forall₂ (PartResolves document page schema declarations holder prop
        (PageView.formatOf (Template.read text) format)) (Template.read text).parts resolved) :
      ValueResolves (.bound text format)
        ⟨PageView.formatOf (Template.read text) format, resolved.map Prod.fst⟩
        (resolved.filterMap Prod.snd)
  | script (text : String) :
      ValueResolves (.script text) (.ofPiece .gap)
        [.inProp .misplacedScript holder prop
          "Runtime expressions are only evaluated in element props"]
  | secret (reference : String) :
      ValueResolves (.secret reference) (.ofPiece (.written (secretToken reference))) []

end Value

variable (props : SortedMap (SortedMap ResolvedProp))

/-- The code of a value stands in the declaration or in the prop that it is for. -/
inductive PlaceResolves : ValuePlace → ResolvedValue → Prop
  | param {node : Node} {name : String} {value : Bindable} {declaration : StateDeclaration}
      {code : PiecedCode} {warnings : List Diagnostic} (declared : declaration ∈ declarations)
      (own : declaration.key = .node node.id)
      (once : (declaration.source.params.map Prod.fst).Nodup)
      (coded : (name, code.text) ∈ declaration.source.params)
      (resolves : ValueResolves document page schema declarations node.id name value code
        warnings) : PlaceResolves (.param node name value) ⟨code.pieces, warnings⟩
  | stateNode {node : Node} {warnings : List Diagnostic}
      (resolves : NodeResolves document node warnings) :
      PlaceResolves (.stateNode node) ⟨[], warnings⟩
  | computed {element : Node} {prop : String} {value : Bindable} {declaration : StateDeclaration}
      {code : PiecedCode} {reads : List String} {warnings : List Diagnostic}
      (declared : declaration ∈ declarations) (own : declaration.key = .prop element.id prop)
      (coded : declaration.source = .computed code.text reads)
      (resolves : ValueResolves document page schema declarations element.id prop value code
        warnings) : PlaceResolves (.computed element prop value) ⟨code.pieces, warnings⟩
  | owned {element : Node} {prop script : String} {declaration : StateDeclaration}
      (declared : declaration ∈ declarations) (own : declaration.key = .prop element.id prop)
      (bare : declaration.source = .controlledPair none) :
      PlaceResolves (.owned element prop script)
        ⟨[], [.inProp .misplacedScript element.id prop
          "Runtime expressions are only evaluated in element props"]⟩
  | shown {element : Node} {prop : String} {value : Bindable} {own : SortedMap ResolvedProp}
      {code : PiecedCode} {warnings : List Diagnostic} (listed : props.get? element.id = some own)
      (coded : own.get? prop = some (.code code.text))
      (resolves : ValueResolves document page schema declarations element.id prop value code
        warnings) : PlaceResolves (.shown element prop value) ⟨code.pieces, warnings⟩
  -- What is shown may be a script: it has no code here, and nothing is wrong with it.
  | script {element : Node} {prop text : String} {own : SortedMap ResolvedProp}
      (listed : props.get? element.id = some own) (given : own.get? prop = some (.script text)) :
      PlaceResolves (.shown element prop (.script text)) ⟨[], []⟩

end Resolved

variable {document : Document} {page : Node} {schema : PropSchema}

section Count

variable {declarations : List StateDeclaration} {holder : NodeId} {prop : String}

theorem gaps_of_parts {format : BoundFormat} {parts : List TemplatePart}
    {resolved : List (CodePiece × Option Diagnostic)}
    (each : List.Forall₂ (PartResolves document page schema declarations holder prop format) parts
      resolved) :
    (resolved.map Prod.fst).count .gap = (resolved.filterMap Prod.snd).length := by
  induction each with
  | nil => rfl
  | cons first rest ih =>
      cases first with
      | text | state => simpa using ih
      | nothing | invalid => simpa using ih

theorem ValueResolves.gaps_eq {value : Bindable} {code : PiecedCode} {warnings : List Diagnostic}
    (resolves : ValueResolves document page schema declarations holder prop value code warnings) :
    code.gaps = warnings.length := by
  cases resolves with
  | const | state | nothing | script | secret => rfl
  | template parts => exact gaps_of_parts parts

theorem located_parts {format : BoundFormat} {parts : List TemplatePart}
    {resolved : List (CodePiece × Option Diagnostic)}
    (each : List.Forall₂ (PartResolves document page schema declarations holder prop format) parts
      resolved) {warning : Diagnostic} (member : warning ∈ resolved.filterMap Prod.snd) :
    warning.node = some holder ∧ warning.prop = some prop := by
  induction each with
  | nil => cases member
  | cons first rest ih =>
      cases first with
      | text | state => exact ih member
      | nothing | invalid =>
          rcases List.mem_cons.1 member with rfl | later
          · exact ⟨rfl, rfl⟩
          · exact ih later

theorem ValueResolves.located {value : Bindable} {code : PiecedCode} {warnings : List Diagnostic}
    (resolves : ValueResolves document page schema declarations holder prop value code warnings)
    {warning : Diagnostic} (member : warning ∈ warnings) :
    warning.node = some holder ∧ warning.prop = some prop := by
  cases resolves with
  | const | state | secret => cases member
  | nothing | script =>
      rw [List.mem_singleton.1 member]
      exact ⟨rfl, rfl⟩
  | template parts => exact located_parts parts member

end Count

theorem is_api_iff {id : NodeId} : PageView.isApi document id = true ↔
    ∃ target, document.get? id = some target ∧ target.type = .api := by
  rw [PageView.isApi]
  cases document.get? id with
  | none => simp
  | some target => simp

theorem node_resolves {node : Node} (state : IsStateNode document page node) :
    NodeResolves document node ((PageView.of document page schema).nodeDiagnostics node) := by
  have type := state.type
  rw [PageView.nodeDiagnostics]
  cases kind : node.type with
  | application | theme | api | page | element =>
      rw [kind] at type
      cases type
  | fetchedState => exact .fetched kind
  | derivedState =>
      cases given : node.attributeText? "code" with
      | none => exact .uncoded kind given
      | some code => exact .coded kind given
  | queryState =>
      cases given : node.attributeText? "api" with
      | none => exact .silent kind given
      | some api =>
          dsimp only
          split
          · rename_i suits
            obtain ⟨target, found, suits⟩ := is_api_iff.1 suits
            exact .asking kind given found suits
          · rename_i stray
            exact .astray kind given fun target found suits =>
              stray (is_api_iff.2 ⟨target, found, suits⟩)

section Reading

variable {order : List StateKey} (holds : document.HoldsPage page)
  (ended : (PageView.of document page schema).graph.order = .ok order) {names : PageNames}
  (proper : ∀ key, HasState document page schema key →
    (names.of (PageView.of document page schema) key).value ≠ placeholder)

include holds ended proper

theorem part_resolves (holder : NodeId) (prop : String) (format : BoundFormat)
    (part : TemplatePart) :
    PartResolves document page schema
      (order.filterMap ((PageView.of document page schema).declaration? names)) holder prop format
      part
      ((PageView.of document page schema).partPiece names format part,
        (PageView.of document page schema).partDiagnostic? holder prop part) := by
  cases part with
  | text chars => exact .text chars
  | invalid written fault => exact .invalid written fault
  | interpolation reference =>
      rw [PageView.partPiece, PageView.partDiagnostic?, PageView.referenceCode]
      cases named : (PageView.of document page schema).referenceTarget? reference with
      | none =>
          apply PartResolves.nothing
          intro key path refers
          rw [(reference_target_iff holds).2 refers] at named
          cases named
      | some target =>
          have refers := (reference_target_iff holds).1 named
          exact .state refers (declared_of_state holds ended names refers.state)
            (proper target.1 refers.state)

theorem value_resolves (holder : NodeId) (prop : String) (value : Bindable) :
    ValueResolves document page schema
      (order.filterMap ((PageView.of document page schema).declaration? names)) holder prop value
      ((PageView.of document page schema).valuePieces names value)
      ((PageView.of document page schema).valueDiagnostics .state holder prop value) := by
  cases value with
  | const value => exact .const value
  | secret reference => exact .secret reference
  | script text => exact .script text
  | binding id slot =>
      rw [PageView.valuePieces, PageView.valueDiagnostics]
      cases named : (PageView.of document page schema).target? id slot with
      | none =>
          apply ValueResolves.nothing
          intro key state address
          rw [(target_iff holds).2 ⟨state, address⟩] at named
          cases named
      | some key =>
          obtain ⟨state, address⟩ := (target_iff holds).1 named
          exact .state state address (declared_of_state holds ended names state)
            (proper key state)
  | bound text format =>
      have resolves : ValueResolves document page schema _ holder prop (.bound text format) _ _ :=
        .template (List.forall₂_map_right_iff.2 (List.forall₂_same.2 fun part _ =>
          part_resolves holds ended proper holder prop _ part))
      rw [List.map_map, List.filterMap_map] at resolves
      exact resolves

omit proper in
theorem declaration_of_entry (names : PageNames) {key : StateKey} {entry : StateEntry}
    {source : StateSource} (entered : Entered document page schema key entry)
    (made : (PageView.of document page schema).source? names entry = some source) :
    ∃ declaration ∈ order.filterMap ((PageView.of document page schema).declaration? names),
      declaration.key = key ∧ declaration.source = source := by
  have declares := declaration_eq_some_iff.2 ⟨entry, source, (entry_iff holds).2 entered, made, rfl⟩
  refine ⟨_, List.mem_filterMap.2 ⟨key, ?_, declares⟩, rfl, rfl⟩
  exact ((graph_order_ok holds ended).2 key).2 (has_state_iff.2 ⟨entry, entered⟩)

theorem place_resolves {place : ValuePlace} (isPlace : IsPlace document page schema place) :
    PlaceResolves document page schema
      (order.filterMap ((PageView.of document page schema).declaration? names))
      ((PageView.of document page schema).props names) place
      ((PageView.of document page schema).resolvedAt names place) := by
  have resolves := value_resolves holds ended proper
  cases isPlace with
  | @param node params name value state held given =>
      obtain ⟨declaration, declared, own, source⟩ := declaration_of_entry holds ended names
        (.node state.found state.child state.type) rfl
      refine .param declared own ?_ ?_ (resolves node.id name value)
      · rw [source, PageView.params_of_node_source, PageView.paramCodes, List.map_map]
        exact param_names_nodup node
      · rw [source, PageView.params_of_node_source, PageView.text_value_pieces]
        exact List.mem_map.2 ⟨(name, value), mem_params_of_iff.2 ⟨params, held, given⟩, rfl⟩
  | stateNode state => exact .stateNode (node_resolves state)
  | @computed element component prop value controls given bound unshared =>
      have entered := Entered.prop controls
      rw [slot_entry_of_bound holds controls given bound unshared] at entered
      obtain ⟨declaration, declared, own, source⟩ :=
        declaration_of_entry holds ended names entered rfl
      rw [← PageView.text_value_pieces] at source
      exact .computed declared own source (resolves element.id prop value)
  | @owned element component prop script controls given =>
      have entered := Entered.prop controls
      rw [slot_entry_of_script given] at entered
      obtain ⟨declaration, declared, own, source⟩ :=
        declaration_of_entry holds ended names entered rfl
      exact .owned declared own source
  | @shown element prop value shows =>
      have listed : ((PageView.of document page schema).props names).get? element.id = _ :=
        props_of_shown holds names shows.shown
      have coded := (element_prop_iff holds names shows.shown).2 (Or.inr ⟨value, shows, rfl⟩)
      cases value with
      | script text => exact .script listed coded
      | const | binding | bound | secret =>
          refine .shown listed ?_ (resolves element.id prop _)
          rw [coded, PageView.text_value_pieces]
          rfl

end Reading

section Declared

variable {order : List StateKey} {scope : Scope} (holds : document.HoldsPage page)
  (ended : (PageView.of document page schema).graph.order = .ok order)

include holds ended

theorem placeholder_not_declared {key : StateKey} {names : StateNames}
    (declared : DeclaredAs document page schema
      (order.filterMap ((PageView.of document page schema).declaration?
        (PageNames.ofView (PageView.of document page schema) scope))) key names) :
    placeholder ∉ names.all := by
  obtain ⟨declaration, member, _, rfl⟩ := declared
  intro named
  have usable := (declarations_add holds scope ended).usable placeholder
    (List.mem_flatMap.2 ⟨declaration, member, named⟩)
  exact absurd usable.free (by decide)

theorem placeholder_not_controlled {id : NodeId} {props : SortedMap ResolvedProp}
    {prop value : String} {setter : Option String}
    (listed : ((PageView.of document page schema).props
      (PageNames.ofView (PageView.of document page schema) scope)).get? id = some props)
    (controlled : props.get? prop = some (.controlled value setter)) : value ≠ placeholder := by
  obtain ⟨element, _, _, each⟩ := props_shown holds ended _ listed
  cases each prop _ controlled with
  | pair declared =>
      intro same
      exact placeholder_not_declared holds ended declared (same ▸ List.mem_cons_self)
  | value given shown => cases shown

end Declared

theorem PlaceResolves.no_gap {declarations : List StateDeclaration}
    {props : SortedMap (SortedMap ResolvedProp)} {place : ValuePlace} {value : ResolvedValue}
    (resolves : PlaceResolves document page schema declarations props place value)
    (silent : value.warnings = []) : CodePiece.gap ∉ value.pieces := by
  have filled {holder : NodeId} {prop : String} {value : Bindable} {code : PiecedCode}
      {warnings : List Diagnostic} (silent : warnings = [])
      (resolves : ValueResolves document page schema declarations holder prop value code warnings) :
      CodePiece.gap ∉ code.pieces := by
    rw [← List.count_eq_zero]
    exact resolves.gaps_eq.trans (List.length_eq_zero_iff.2 silent)
  cases resolves with
  | param _ _ _ _ resolves | computed _ _ _ resolves | shown _ _ resolves =>
      exact filled silent resolves
  | stateNode | owned | script => exact List.not_mem_nil

/-- Where the bindings of a page are found, its warnings are those of its places, each looked at
once. A value has as many placeholders as warnings, and these name its node and its prop; names are
never the placeholder, so without warnings there is none. -/
theorem warnings_match_placeholders (valid : document.Valid) {id : NodeId} {scope : Scope}
    {bindings : PageBindings} (found : document.bindings id schema scope = .ok bindings) :
    ∃ page places resolved, document.get? id = some page ∧ page.type = .page ∧
      (bindings.declarations.map StateDeclaration.key).Nodup ∧ places.Nodup ∧
      (∀ place, place ∈ places ↔ IsPlace document page schema place) ∧
      List.Forall₂ (PlaceResolves document page schema bindings.declarations bindings.props)
        places resolved ∧
      bindings.diagnostics = resolved.flatMap ResolvedValue.warnings ∧
      (∀ holder prop value code warnings,
        ValueResolves document page schema bindings.declarations holder prop value code warnings →
          code.gaps = warnings.length ∧
          ∀ warning ∈ warnings, warning.node = some holder ∧ warning.prop = some prop) ∧
      (∀ key names, DeclaredAs document page schema bindings.declarations key names →
        placeholder ∉ names.all) ∧
      (∀ shown props prop value setter, bindings.props.get? shown = some props →
        props.get? prop = some (.controlled value setter) → value ≠ placeholder) ∧
      (bindings.diagnostics = [] → ∀ value ∈ resolved, CodePiece.gap ∉ value.pieces) := by
  obtain ⟨page, order, holds, own, ended, view⟩ := bindings_ok valid found
  rw [PageView.bindings, ended] at view
  cases view
  dsimp only
  have resolves := fun place member =>
    place_resolves holds ended (fun _ state => name_of_state holds scope ended state)
      ((@mem_places_iff document page schema holds place).1 member)
  have each := List.forall₂_map_right_iff.2 (List.forall₂_same.2 resolves)
  have warnings := PageView.diagnostics_eq (PageView.of document page schema)
    (PageNames.ofView (PageView.of document page schema) scope)
  rw [← List.flatMap_map] at warnings
  refine ⟨page, _, _, own ▸ holds.found, holds.type, ?_, places_nodup holds,
    fun place => mem_places_iff holds, each, warnings, ?_, ?_, ?_, ?_⟩
  · rw [keys_of_declarations]
    exact (graph_order_ok holds ended).1.nodup.filter _
  · exact fun holder prop value code warnings resolves =>
      ⟨resolves.gaps_eq, fun warning member => resolves.located member⟩
  · exact fun key names declared => placeholder_not_declared holds ended declared
  · exact fun shown props prop value setter listed controlled =>
      placeholder_not_controlled holds ended listed controlled
  · intro silent value member
    rw [warnings, List.flatMap_eq_nil_iff] at silent
    obtain ⟨place, inside, rfl⟩ := List.mem_map.1 member
    exact (resolves place inside).no_gap (silent _ member)

/-- A page with a derived state and text fields, of whose values only one leads anywhere. -/
def sampleGaps : Document :=
  let page : Node := ⟨"p", "home", none, .empty, .page .empty⟩
  let field (id : NodeId) (props : List (String × Bindable)) : Node :=
    ⟨id, id, none, .ofList [("component", .constString "TextField")], .element (.ofList props)⟩
  let sum : Node :=
    ⟨"s", "sum", none, .ofList [("code", .constString "() => 0")], .derivedState (.ofList
      [("bound", .binding "q" "value"), ("run", .script "1 + 1"),
        ("text", .bound "\x7b\x7b gone.value \x7d\x7d of \x7b\x7b 1 \x7d\x7d" none)])⟩
  (ofRoot "r").run
    [.addNode page "r" "pages" none, .addNode sum "p" "state" none,
      .addNode (field "a" [("label", .bound "\x7b\x7b sum.total \x7d\x7d" none),
        ("placeholder", .binding "s" "total"), ("value", .script "1 + 1")]) "p" "children" none,
      .addNode (field "b" [("value", .binding "s" "total")]) "a" "children" none]

theorem warnings_match_placeholders_sample :
    sampleGaps.Valid ∧ ∃ page places resolved bindings,
      sampleGaps.bindings "p" Catalog.builtin.schema Scope.root = .ok bindings ∧
      List.Forall₂ (PlaceResolves sampleGaps page Catalog.builtin.schema bindings.declarations
        bindings.props) places resolved ∧
      bindings.diagnostics = resolved.flatMap ResolvedValue.warnings ∧
      bindings.diagnostics.map (fun warning => (warning.kind, warning.node, warning.prop)) =
        [(.unresolvedInterpolation, some "s", some "bound"),
          (.misplacedScript, some "s", some "run"),
          (.unresolvedInterpolation, some "s", some "text"),
          (.malformedInterpolation, some "s", some "text"),
          (.misplacedScript, some "a", some "value"),
          (.unresolvedInterpolation, some "b", some "value"),
          (.unresolvedInterpolation, some "a", some "placeholder")] ∧
      bindings.declarations.map StateDeclaration.source =
        [.derived "() => 0" [("bound", "undefined"), ("run", "undefined"),
            ("text", "`$\x7bundefined\x7d of $\x7bundefined\x7d`")] [],
          .controlledPair none, .computed "undefined" []] := by
  have valid : sampleGaps.Valid := valid_run (valid_of_root "r") _
  have told : (sampleGaps.bindings "p" Catalog.builtin.schema Scope.root).map (fun bindings =>
      (bindings.diagnostics.map fun warning => (warning.kind, warning.node, warning.prop),
        bindings.declarations.map StateDeclaration.source)) =
      .ok ([(.unresolvedInterpolation, some "s", some "bound"),
          (.misplacedScript, some "s", some "run"),
          (.unresolvedInterpolation, some "s", some "text"),
          (.malformedInterpolation, some "s", some "text"),
          (.misplacedScript, some "a", some "value"),
          (.unresolvedInterpolation, some "b", some "value"),
          (.unresolvedInterpolation, some "a", some "placeholder")],
        [.derived "() => 0" [("bound", "undefined"), ("run", "undefined"),
            ("text", "`$\x7bundefined\x7d of $\x7bundefined\x7d`")] [],
          .controlledPair none, .computed "undefined" []]) := by
    decide +kernel
  obtain ⟨bindings, found, listed⟩ := Outcome.map_eq_ok.1 told
  obtain ⟨warned, declared⟩ := Prod.mk.inj listed
  obtain ⟨page, places, resolved, _, _, _, _, _, each, warnings, _⟩ :=
    warnings_match_placeholders valid found
  exact ⟨valid, page, places, resolved, bindings, found, each, warnings, warned, declared⟩

end Document

end PageBuilder
