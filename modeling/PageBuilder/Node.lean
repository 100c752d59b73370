import PageBuilder.Bindable
import PageBuilder.Text.LetterCase

/-!
Nodes of a document. Every node has an identifier, a name, attributes and, unless it is the root or
not placed yet, a place below another node. What else it holds depends on its type.
-/

namespace PageBuilder

inductive NodeType where
  | application
  | theme
  | api
  | page
  | element
  | derivedState
  | queryState
  | fetchedState
  deriving DecidableEq

namespace NodeType

def all : List NodeType :=
  [.application, .theme, .api, .page, .element, .derivedState, .queryState, .fetchedState]

def name : NodeType → String
  | .application => "application"
  | .theme => "theme"
  | .api => "api"
  | .page => "page"
  | .element => "element"
  | .derivedState => "derivedState"
  | .queryState => "queryState"
  | .fetchedState => "fetchedState"

def decode : Decoder NodeType := Decode.choice (all.map fun type => (type.name, type))

def parents : NodeType → List NodeType
  | .application => []
  | .theme | .api | .page => [.application]
  | .element => [.page, .element]
  | .derivedState | .queryState | .fetchedState => [.page]

def fitsUnder (child parent : NodeType) : Bool := parent ∈ child.parents

def isPageState : NodeType → Bool
  | .derivedState | .queryState | .fetchedState => true
  | _ => false

end NodeType

inductive Namespace where
  | attributes
  | props
  | params
  deriving DecidableEq

namespace Namespace

def names : List (String × Namespace) :=
  [("attributes", .attributes), ("props", .props), ("params", .params)]

def name : Namespace → String
  | .attributes => "attributes"
  | .props => "props"
  | .params => "params"

def decode : Decoder Namespace := Decode.choice names

theorem lookup_name (space : Namespace) : names.lookup space.name = some space := by
  cases space <;> rfl

end Namespace

structure Placement where
  parent : NodeId
  slot : String
  index : String
  deriving DecidableEq

inductive NodeKind where
  | application
  | theme
  | api
  | page (state : SortedMap Json)
  | element (props : BindableMap)
  | derivedState (params : BindableMap)
  | queryState (params : BindableMap)
  | fetchedState (params : BindableMap)
  deriving BEq

namespace NodeKind

def type : NodeKind → NodeType
  | .application => .application
  | .theme => .theme
  | .api => .api
  | .page _ => .page
  | .element _ => .element
  | .derivedState _ => .derivedState
  | .queryState _ => .queryState
  | .fetchedState _ => .fetchedState

def props? : NodeKind → Option BindableMap
  | .element props => some props
  | _ => none

def params? : NodeKind → Option BindableMap
  | .derivedState params => some params
  | .queryState params => some params
  | .fetchedState params => some params
  | _ => none

def state? : NodeKind → Option (SortedMap Json)
  | .page state => some state
  | _ => none

/-- Changes nothing where the kind has no props. -/
def mapProps (change : BindableMap → BindableMap) : NodeKind → NodeKind
  | .element props => .element (change props)
  | kind => kind

def mapParams (change : BindableMap → BindableMap) : NodeKind → NodeKind
  | .derivedState params => .derivedState (change params)
  | .queryState params => .queryState (change params)
  | .fetchedState params => .fetchedState (change params)
  | kind => kind

def mapState (change : SortedMap Json → SortedMap Json) : NodeKind → NodeKind
  | .page state => .page (change state)
  | kind => kind

theorem type_map_props (kind : NodeKind) (change : BindableMap → BindableMap) :
    (kind.mapProps change).type = kind.type := by
  cases kind <;> rfl

theorem type_map_params (kind : NodeKind) (change : BindableMap → BindableMap) :
    (kind.mapParams change).type = kind.type := by
  cases kind <;> rfl

theorem type_map_state (kind : NodeKind) (change : SortedMap Json → SortedMap Json) :
    (kind.mapState change).type = kind.type := by
  cases kind <;> rfl

end NodeKind

structure Node where
  id : NodeId
  name : String
  placement : Option Placement
  attributes : BindableMap
  kind : NodeKind
  deriving BEq

namespace Node

def type (node : Node) : NodeType := node.kind.type

def parent? (node : Node) : Option NodeId := node.placement.map Placement.parent

def attributeText? (node : Node) (name : String) : Option String :=
  (node.attributes.get? name).bind Bindable.string?

def component? (node : Node) : Option String :=
  match node.kind with
  | .element _ => node.attributeText? "component"
  | _ => none

def values? (node : Node) : Namespace → Option BindableMap
  | .attributes => some node.attributes
  | .props => node.kind.props?
  | .params => node.kind.params?

def mapValues (node : Node) (change : BindableMap → BindableMap) : Namespace → Node
  | .attributes => { node with attributes := change node.attributes }
  | .props => { node with kind := node.kind.mapProps change }
  | .params => { node with kind := node.kind.mapParams change }

theorem type_map_values (node : Node) (change : BindableMap → BindableMap) (space : Namespace) :
    (node.mapValues change space).type = node.type := by
  cases space
  · rfl
  · exact node.kind.type_map_props change
  · exact node.kind.type_map_params change

end Node

structure NodeDraft where
  name : Option String
  attributes : BindableMap
  kind : NodeKind

namespace NodeDraft

def ofKind (kind : NodeKind) : NodeDraft := ⟨none, .empty, kind⟩

def named (draft : NodeDraft) (name : String) : NodeDraft := { draft with name := some name }

def withAttribute (draft : NodeDraft) (name : String) (value : Bindable) : NodeDraft :=
  { draft with attributes := draft.attributes.insert name value }

def withProp (draft : NodeDraft) (name : String) (value : Bindable) : NodeDraft :=
  { draft with kind := draft.kind.mapProps fun props => props.insert name value }

def withParam (draft : NodeDraft) (name : String) (value : Bindable) : NodeDraft :=
  { draft with kind := draft.kind.mapParams fun params => params.insert name value }

def withState (draft : NodeDraft) (slot : String) (value : Json) : NodeDraft :=
  { draft with kind := draft.kind.mapState fun state => state.insert slot value }

def theme : NodeDraft := ofKind .theme

def api (baseUrl : String) : NodeDraft :=
  (ofKind .api).withAttribute "baseUrl" (.constString baseUrl)

def page (title : String) : NodeDraft :=
  (ofKind (.page .empty)).withAttribute "title" (.constString title)

def element (component : String) : NodeDraft :=
  (ofKind (.element .empty)).withAttribute "component" (.constString component)

def derivedState (code : String) : NodeDraft :=
  (ofKind (.derivedState .empty)).withAttribute "code" (.constString code)

def queryState (api : NodeId) : NodeDraft :=
  (ofKind (.queryState .empty)).withAttribute "api" (.constString api)

def fetchedState : NodeDraft := ofKind (.fetchedState .empty)

/-- Elements are named after their component, other nodes after their type. -/
def defaultName (draft : NodeDraft) : String :=
  match draft.kind with
  | .element _ =>
      match (draft.attributes.get? "component").bind Bindable.string? with
      | some component => Text.lowerFirst component
      | none => "element"
  | kind => kind.type.name

end NodeDraft

end PageBuilder
