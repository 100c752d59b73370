import PageBuilder.Page.Bindings
import PageBuilder.Proofs.Page.Shown
import Mathlib.Logic.Relation

/-!
The state of a page and what it reads, told by the nodes of the document: no keys are collected, no
binding is classified and no order is kept.
-/

namespace PageBuilder

/-- The node and the slot by which a binding names a piece of state. -/
def StateKey.address : StateKey → NodeId × String
  | .pageSlot page slot => (page, slot)
  | .node id => (id, stateValueSlot)
  | .prop element name => (element, name)

def Node.Gives (element : Node) (prop : String) (value : Bindable) : Prop :=
  ∃ props, element.kind.props? = some props ∧ props.get? prop = some value

theorem Node.Gives.unique {element : Node} {prop : String} {left right : Bindable}
    (first : element.Gives prop left) (second : element.Gives prop right) : left = right := by
  obtain ⟨props, held, listed⟩ := first
  obtain ⟨others, again, given⟩ := second
  rw [held] at again
  cases again
  rw [listed] at given
  exact Option.some.inj given

namespace Document

variable (document : Document) (page : Node) (schema : PropSchema)

/-- The page shows an element of a known component, and a prop of it holds state. -/
structure Controls (element : Node) (component prop : String) : Prop where
  shown : document.Shown page.id element
  shows : element.component? = some component
  known : schema.knows component = true
  controlled : prop ∈ schema.controlled component

/-- Slots of the page, state nodes that stand in it, and controlled props of what it shows. -/
inductive HasState : StateKey → Prop
  | slot {slots : SortedMap Json} {slot : String} {value : Json}
      (held : page.kind.state? = some slots) (listed : slots.get? slot = some value) :
      HasState (.pageSlot page.id slot)
  | node {node : Node} (found : document.get? node.id = some node)
      (child : document.parentId? node.id = some page.id)
      (type : node.type.isPageState = true) : HasState (.node node.id)
  | prop {element : Node} {component prop : String}
      (controls : Controls document page schema element component prop) :
      HasState (.prop element.id prop)

/-- What is read by a reference: the name of a state node, or the name of the page or of an element
with a slot or prop, and in both cases a path from there. -/
inductive Refers : Reference → StateKey → List PathSegment → Prop
  | node {node : Node} {path : List PathSegment} (found : document.get? node.id = some node)
      (state : HasState document page schema (.node node.id)) :
      Refers ⟨node.name, path⟩ (.node node.id) path
  | pair {key : StateKey} {holder : Node} {path : List PathSegment}
      (found : document.get? key.owner = some holder) (pair : PageView.isPair key = true)
      (state : HasState document page schema key) :
      Refers ⟨holder.name, .field key.second :: path⟩ key path

/-- A value reads what it is bound to, and what its interpolations refer to. -/
inductive ValueReads : Bindable → StateKey → Prop
  | binding {key : StateKey} {id : NodeId} {slot : String}
      (state : HasState document page schema key) (address : key.address = (id, slot)) :
      ValueReads (.binding id slot) key
  | interpolation {text : String} {format : Option BoundFormat} {reference : Reference}
      {key : StateKey} {path : List PathSegment}
      (written : reference ∈ (Template.read text).references)
      (refers : Refers document page schema reference key path) :
      ValueReads (.bound text format) key

/-- A controlled prop that is bound to another pair shares it. -/
inductive Shares : StateKey → StateKey → Prop
  | bound {element : Node} {component prop : String} {target : StateKey} {id : NodeId}
      {slot : String} (controls : Controls document page schema element component prop)
      (given : element.Gives prop (.binding id slot))
      (state : HasState document page schema target) (pair : PageView.isPair target = true)
      (address : target.address = (id, slot)) (other : target ≠ .prop element.id prop) :
      Shares (.prop element.id prop) target

/-- One piece of state reads another: the pair it shares, or what its params or its value read. -/
inductive Reads : StateKey → StateKey → Prop
  | shared {key target : StateKey} (shares : Shares document page schema key target) :
      Reads key target
  | param {node : Node} {params : BindableMap} {name : String} {value : Bindable}
      {target : StateKey} (found : document.get? node.id = some node)
      (state : HasState document page schema (.node node.id))
      (held : node.kind.params? = some params) (listed : params.get? name = some value)
      (reads : ValueReads document page schema value target) : Reads (.node node.id) target
  | computed {element : Node} {component prop : String} {value : Bindable} {target : StateKey}
      (controls : Controls document page schema element component prop)
      (given : element.Gives prop value)
      (unshared : ¬∃ pair, Shares document page schema (.prop element.id prop) pair)
      (reads : ValueReads document page schema value target) :
      Reads (.prop element.id prop) target

/-- The way along shared pairs ends at a piece of state that shares none. -/
structure OwnedBy (key owner : StateKey) : Prop where
  way : Relation.ReflTransGen (Shares document page schema) key owner
  state : HasState document page schema owner
  owns : ¬∃ target, Shares document page schema owner target

variable {document : Document} {page : Node} {schema : PropSchema}

theorem Refers.state {reference : Reference} {key : StateKey} {path : List PathSegment}
    (refers : Refers document page schema reference key path) :
    HasState document page schema key := by
  cases refers with
  | node _ state => exact state
  | pair _ _ state => exact state

theorem ValueReads.state {value : Bindable} {key : StateKey}
    (reads : ValueReads document page schema value key) : HasState document page schema key := by
  cases reads with
  | binding state _ => exact state
  | interpolation _ refers => exact refers.state

theorem Reads.states {key target : StateKey} (reads : Reads document page schema key target) :
    HasState document page schema key ∧ HasState document page schema target := by
  cases reads with
  | shared shares =>
      cases shares with
      | bound controls _ state => exact ⟨.prop controls, state⟩
  | param _ state _ _ reads => exact ⟨state, reads.state⟩
  | computed controls _ _ reads => exact ⟨.prop controls, reads.state⟩

end Document

end PageBuilder
