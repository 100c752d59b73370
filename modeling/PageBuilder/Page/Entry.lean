import PageBuilder.Document.Basic
import PageBuilder.Page.Schema
import PageBuilder.Page.State
import PageBuilder.Template

/-!
Which state a page has, and which state its values read. A controlled prop that is bound to another
pair shares that pair; one that is computed has no setter; any other owns a pair of its own.
-/

namespace PageBuilder

inductive StateEntry where
  | pageSlot (default : Json)
  | node (node : Node)
  | owned (element : Node) (component prop : String) (value : Option Bindable)
  | computed (element : Node) (prop : String) (value : Bindable)
  | shared (target : StateKey)

def childrenSlot : String := "children"

def stateValueSlot : String := "value"

namespace Document

/-- Elements among the nodes and below them, at most `depth` levels deep, each before those below
it. -/
def elementsBelow (document : Document) : Nat → List Node → List Node
  | 0, _ => []
  | depth + 1, nodes =>
      (nodes.filter fun node => node.type = .element).flatMap fun element =>
        element :: document.elementsBelow depth (document.children element.id)

def markupElements (document : Document) (page : NodeId) : List Node :=
  document.elementsBelow document.size (document.childrenIn page childrenSlot)

end Document

/-- A page with what is needed to resolve its values. -/
structure PageView where
  document : Document
  page : Node
  schema : PropSchema
  /-- The page and all nodes below it. -/
  inside : List NodeId
  entries : List (StateKey × StateEntry)

namespace PageView

def knownComponent? (schema : PropSchema) (element : Node) : Option String :=
  element.component?.filter schema.knows

def nodesInside (document : Document) (page : Node) : List NodeId :=
  page.id :: (document.descendants page.id).map Node.id

/-- The state that `node.slot` names, whether the page has it or not. -/
def slotKey? (document : Document) (inside : List NodeId) (id : NodeId) (slot : String) :
    Option StateKey := do
  if inside.contains id then
    let node ← document.get? id
    match node.type with
    | .page => some (.pageSlot node.id slot)
    | .element => some (.prop node.id slot)
    | .derivedState | .queryState | .fetchedState =>
        if slot = stateValueSlot then some (.node node.id) else none
    | _ => none
  else none

def isPair : StateKey → Bool
  | .node _ => false
  | _ => true

/-- An element of a known component with one of its controlled props. -/
structure ControlledSlot where
  element : Node
  component : String
  prop : String

namespace ControlledSlot

def key (slot : ControlledSlot) : StateKey := .prop slot.element.id slot.prop

def value? (slot : ControlledSlot) : Option Bindable :=
  slot.element.kind.props?.bind fun props => props.get? slot.prop

def entry (document : Document) (inside : List NodeId) (keys : List StateKey)
    (slot : ControlledSlot) : StateEntry :=
  match slot.value? with
  | some (.binding node prop) =>
      match (slotKey? document inside node prop).filter fun key =>
          isPair key && keys.contains key && key ≠ slot.key with
      | some target => .shared target
      | none => .computed slot.element slot.prop (.binding node prop)
  | some (.bound text format) => .computed slot.element slot.prop (.bound text format)
  | value => .owned slot.element slot.component slot.prop value

end ControlledSlot

def controlledSlots (document : Document) (page : Node) (schema : PropSchema) :
    List ControlledSlot :=
  (document.markupElements page.id).flatMap fun element =>
    match knownComponent? schema element with
    | some component =>
        (schema.controlled component).eraseDups.map fun prop => ⟨element, component, prop⟩
    | none => []

def pageSlots (page : Node) : List (StateKey × StateEntry) :=
  match page.kind.state? with
  | some state => state.entries.map fun entry => (.pageSlot page.id entry.1, .pageSlot entry.2)
  | none => []

def stateNodes (document : Document) (page : Node) : List (StateKey × StateEntry) :=
  ((document.children page.id).filter fun node => node.type.isPageState).map fun node =>
    (.node node.id, .node node)

def of (document : Document) (page : Node) (schema : PropSchema) : PageView :=
  let plain := pageSlots page ++ stateNodes document page
  let slots := controlledSlots document page schema
  let keys := plain.map Prod.fst ++ slots.map ControlledSlot.key
  let inside := nodesInside document page
  let controlled := slots.map fun slot => (slot.key, slot.entry document inside keys)
  ⟨document, page, schema, inside, plain ++ controlled⟩

def keys (view : PageView) : List StateKey := view.entries.map Prod.fst

def entryOf? (view : PageView) (key : StateKey) : Option StateEntry :=
  (view.entries.find? fun entry => entry.1 = key).map Prod.snd

def has (view : PageView) (key : StateKey) : Bool := view.keys.contains key

def target? (view : PageView) (node : NodeId) (slot : String) : Option StateKey :=
  (slotKey? view.document view.inside node slot).filter view.has

/-- The state that a reference reads, and the path it takes from there. -/
def referenceTarget? (view : PageView) (reference : Reference) :
    Option (StateKey × List PathSegment) := do
  let node ← view.document.nodeNamed? reference.root
  if view.inside.contains node.id then
    match node.type with
    | .derivedState | .queryState | .fetchedState => some (.node node.id, reference.segments)
    | .page | .element =>
        match reference.segments with
        | .field slot :: rest => (view.target? node.id slot).map fun key => (key, rest)
        | _ => none
    | _ => none
  else none

/-- The state that a value reads, in order and with repetitions. -/
def valueReads (view : PageView) : Bindable → List StateKey
  | .binding node slot => (view.target? node slot).toList
  | .bound text _ =>
      (Template.read text).references.filterMap fun reference =>
        (view.referenceTarget? reference).map Prod.fst
  | _ => []

def paramsOf (node : Node) : List (String × Bindable) :=
  match node.kind.params? with
  | some params => params.entries
  | none => []

/-- The state that an entry reads; one that is shared reads the one it shares. -/
def entryReads (view : PageView) : StateEntry → List StateKey
  | .pageSlot _ | .owned .. => []
  | .node node => (paramsOf node).flatMap fun param => view.valueReads param.2
  | .computed _ _ value => view.valueReads value
  | .shared target => [target]

/-- Follows shared pairs to the one that owns the names, in at most `steps` steps. -/
def ownerWithin? (view : PageView) : Nat → StateKey → Option StateKey
  | 0, _ => none
  | steps + 1, key =>
      match view.entryOf? key with
      | none => none
      | some (.shared target) => view.ownerWithin? steps target
      | some _ => some key

/-- None if the shared pairs lead round in a circle. -/
def owner? (view : PageView) (key : StateKey) : Option StateKey :=
  view.ownerWithin? (view.entries.length + 1) key

def label (view : PageView) : StateKey → String
  | .pageSlot page slot => s!"{view.document.labelOf page}.{slot}"
  | .node id => view.document.labelOf id
  | .prop element prop => s!"{view.document.labelOf element}.{prop}"

end PageView

end PageBuilder
