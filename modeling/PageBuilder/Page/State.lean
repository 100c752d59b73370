import PageBuilder.Node

/-!
The state of a page: slots of the page itself, state nodes, and controlled props of its elements.
Each piece of state has a key; a declaration gives it names in generated code.
-/

namespace PageBuilder

inductive StateKey where
  | pageSlot (page : NodeId) (slot : String)
  | node (id : NodeId)
  | prop (element : NodeId) (prop : String)
  deriving DecidableEq

namespace StateKey

def rank : StateKey → Nat
  | .pageSlot _ _ => 0
  | .node _ => 1
  | .prop _ _ => 2

def first : StateKey → String
  | .pageSlot page _ => page
  | .node id => id
  | .prop element _ => element

def second : StateKey → String
  | .pageSlot _ slot => slot
  | .node _ => ""
  | .prop _ name => name

/-- Page slots come before nodes, and these before props. -/
instance : Ord StateKey where
  compare left right :=
    (compare left.rank right.rank).then
      ((compare left.first right.first).then (compare left.second right.second))

def owner : StateKey → NodeId := first

def text : StateKey → String
  | .pageSlot page slot => s!"{page}.{slot}"
  | .node id => id
  | .prop element name => s!"{element}.{name}"

end StateKey

/-- The names of a piece of state. State that is only read has no setter. -/
structure StateNames where
  value : String
  setter : Option String
  deriving DecidableEq

/-- Stands in generated code for what cannot be resolved. -/
def placeholder : String := "undefined"

def StateNames.unknown : StateNames := ⟨placeholder, none⟩

inductive ResolvedProp where
  | code (text : String)
  | script (text : String)
  | controlled (value : String) (setter : Option String)
  deriving DecidableEq

inductive StateSource where
  | pageSlot (initial : String)
  | controlledPair (initial : Option String)
  | computed (expression : String) (reads : List String)
  | derived (code : String) (params : List (String × String)) (reads : List String)
  | query (api : String) (node : NodeId) (params : List (String × String))
  | fetched (params : List (String × String))
  deriving DecidableEq

structure StateDeclaration where
  key : StateKey
  label : String
  names : StateNames
  source : StateSource
  deriving DecidableEq

end PageBuilder
