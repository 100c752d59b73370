import PageBuilder.Page.Value
import PageBuilder.ReadGraph

/-!
The bindings of a page: its state as declarations, each after those it reads, the values of the
props it shows, and the object against which scripts run.
-/

namespace PageBuilder

structure PageBindings where
  page : NodeId
  declarations : List StateDeclaration
  props : SortedMap (SortedMap ResolvedProp)
  runtimeScope : List (String × String)
  usesRuntime : Bool
  diagnostics : List Diagnostic
  scope : Scope

inductive PageFault where
  | lookup (fault : LookupFault)
  | cycle (cycle : ReadCycle String)
  deriving DecidableEq

namespace PageView

def initialValue (view : PageView) (component prop : String) : Option Bindable → Option String
  | some (.const value) => some value.text
  | some (.secret reference) => some (secretToken reference)
  | some (.script _) => none
  | _ => (view.schema.default? component prop).map Json.text

def paramCodes (view : PageView) (names : PageNames) (node : Node) : List (String × String) :=
  (paramsOf node).map fun param => (param.1, view.valueCode names param.2)

/-- What a derived state without code is made of. -/
def missingCode : String := "() => undefined"

def nodeSource (view : PageView) (names : PageNames) (node : Node) : StateSource :=
  let params := view.paramCodes names node
  match node.type with
  | .derivedState =>
      .derived ((node.attributeText? "code").getD missingCode) params
        (names.valuesOf view (view.entryReads (.node node)))
  | .queryState => .query ((node.attributeText? "api").getD "") node.id params
  | _ => .fetched params

/-- A shared pair has no source of its own. -/
def source? (view : PageView) (names : PageNames) : StateEntry → Option StateSource
  | .pageSlot default => some (.pageSlot default.text)
  | .node node => some (view.nodeSource names node)
  | .owned _ component prop value =>
      some (.controlledPair (view.initialValue component prop value))
  | .computed _ _ value =>
      some (.computed (view.valueCode names value)
        (names.valuesOf view (view.valueReads value)))
  | .shared _ => none

def declaration? (view : PageView) (names : PageNames) (key : StateKey) :
    Option StateDeclaration := do
  let source ← view.source? names (← view.entryOf? key)
  some ⟨key, view.label key, names.of view key, source⟩

/-- Which state reads which. -/
def graph (view : PageView) : ReadGraph StateKey :=
  view.entries.foldl
    (fun graph entry =>
      (view.entryReads entry.2).foldl (fun graph read => graph.addRead entry.1 read)
        (graph.addNode entry.1))
    .empty

def controlledProp (view : PageView) (names : PageNames) (key : StateKey) : ResolvedProp :=
  let given := names.of view key
  .controlled given.value given.setter

def givenProp (view : PageView) (names : PageNames) (element : Node)
    (entry : String × Bindable) : String × ResolvedProp :=
  let key := StateKey.prop element.id entry.1
  (entry.1,
    if view.has key then view.controlledProp names key else view.valueProp names entry.2)

def givenProps (element : Node) : List (String × Bindable) :=
  match element.kind.props? with
  | some props => props.entries
  | none => []

def elementProps (view : PageView) (names : PageNames) (element : Node) :
    SortedMap ResolvedProp :=
  match knownComponent? view.schema element with
  | none => .empty
  | some component =>
      let given := SortedMap.ofList ((givenProps element).map (view.givenProp names element))
      (view.schema.controlled component).foldl
        (fun props prop =>
          if props.contains prop then props
          else props.insert prop (view.controlledProp names (.prop element.id prop)))
        given

def markup (view : PageView) : List Node := view.document.markupElements view.page.id

def props (view : PageView) (names : PageNames) : SortedMap (SortedMap ResolvedProp) :=
  SortedMap.ofList
    (view.markup.map fun element => (element.id, view.elementProps names element))

def shownValues (view : PageView) : List (Node × String × Bindable) :=
  view.markup.flatMap fun element =>
    match knownComponent? view.schema element with
    | none => []
    | some _ =>
        ((givenProps element).filter fun entry => !view.has (.prop element.id entry.1)).map
          fun entry => (element, entry)

def isScript : Bindable → Bool
  | .script _ => true
  | _ => false

def usesRuntime (view : PageView) : Bool :=
  view.shownValues.any fun shown => isScript shown.2.2

def objectKey (name : String) : String :=
  if Identifier.ofText name = name then name else Json.stringText name

def directEntries (view : PageView) (names : PageNames) : List (String × String) :=
  view.keys.filterMap fun key =>
    match key with
    | .node _ => some (view.label key, (names.of view key).value)
    | _ => none

/-- The slots and controlled props of one node. -/
def groupOf (view : PageView) (names : PageNames) (owner : String) : SortedMap String :=
  SortedMap.ofList (view.keys.filterMap fun key =>
    if isPair key && view.document.labelOf key.owner = owner then
      some (key.second, (names.of view key).value)
    else none)

def groupText (fields : SortedMap String) : String :=
  let texts := fields.entries.map fun field => s!"{objectKey field.1}: {field.2}"
  "\x7b " ++ ", ".intercalate texts ++ " \x7d"

def groupNames (view : PageView) : List String :=
  ((view.keys.filter isPair).map fun key => view.document.labelOf key.owner).eraseDups

def groupEntries (view : PageView) (names : PageNames) : List (String × String) :=
  view.groupNames.map fun owner => (owner, groupText (view.groupOf names owner))

/-- State nodes by name, and slots and controlled props under the name of their node. -/
def runtimeScope (view : PageView) (names : PageNames) : List (String × String) :=
  let entries := SortedMap.ofList (view.directEntries names ++ view.groupEntries names)
  entries.entries.map fun entry => (objectKey entry.1, entry.2)

def isApi (document : Document) (id : NodeId) : Bool :=
  match document.get? id with
  | some node => node.type = .api
  | none => false

def nodeDiagnostics (view : PageView) (node : Node) : List Diagnostic :=
  match node.type with
  | .derivedState =>
      if (node.attributeText? "code").isSome then []
      else [.inProp .incompleteState node.id "code" s!"Derived state `{node.name}` has no code"]
  | .queryState =>
      match node.attributeText? "api" with
      | none => [.inProp .incompleteState node.id "api" s!"Query `{node.name}` has no api"]
      | some api =>
          if isApi view.document api then []
          else
            [.inProp .unresolvedInterpolation node.id "api"
              s!"Query `{node.name}` uses unknown api {api}"]
  | _ => []

def entryDiagnostics (view : PageView) : StateEntry → List Diagnostic
  | .node node =>
      ((paramsOf node).flatMap fun param =>
        view.valueDiagnostics .state node.id param.1 param.2) ++ view.nodeDiagnostics node
  | .owned element _ prop (some (.script _)) => [misplacedScript element.id prop]
  | .computed element prop value => view.valueDiagnostics .state element.id prop value
  | _ => []

def diagnostics (view : PageView) : List Diagnostic :=
  (view.entries.flatMap fun entry => view.entryDiagnostics entry.2)
    ++ view.shownValues.flatMap fun shown =>
      view.valueDiagnostics .markup shown.1.id shown.2.1 shown.2.2

def bindings (view : PageView) (scope : Scope) : Except PageFault PageBindings :=
  match view.graph.order with
  | .error cycle => .error (.cycle (cycle.labelled view.label))
  | .ok order =>
      let names := PageNames.ofView view scope
      .ok
        { page := view.page.id
          declarations := order.filterMap (view.declaration? names)
          props := view.props names
          runtimeScope := view.runtimeScope names
          usesRuntime := view.usesRuntime
          diagnostics := view.diagnostics
          scope := names.scope }

end PageView

def Document.bindings (document : Document) (page : NodeId) (schema : PropSchema)
    (scope : Scope) : Except PageFault PageBindings :=
  match document.nodeOfType page .page with
  | .error fault => .error (.lookup fault)
  | .ok page => (PageView.of document page schema).bindings scope

end PageBuilder
