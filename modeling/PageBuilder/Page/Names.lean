import PageBuilder.Page.Entry
import PageBuilder.Scope
import PageBuilder.Text.LetterCase

/-!
The names that the state of a page has in generated code. Names are given in the order in which the
state is first used, and state that shares a pair has the names of that pair.
-/

namespace PageBuilder

structure PageNames where
  scope : Scope
  given : List (StateKey × StateNames)

namespace PageNames

def find? (names : PageNames) (key : StateKey) : Option StateNames :=
  (names.given.find? fun entry => entry.1 = key).map Prod.snd

/-- The name close to which a piece of state is called, and whether it can be set. -/
structure Wish where
  base : String
  settable : Bool

def propBase (element : Node) (prop : String) : String := element.name ++ Text.upperFirst prop

def wish (key : StateKey) : StateEntry → Option Wish
  | .pageSlot _ => some ⟨key.second, true⟩
  | .node node => some ⟨node.name, false⟩
  | .owned element _ prop _ => some ⟨propBase element prop, true⟩
  | .computed element prop _ => some ⟨propBase element prop, false⟩
  | .shared _ => none

def setterBase (value : String) : String := "set" ++ Text.upperFirst value

def give (scope : Scope) (wish : Wish) : StateNames × Scope :=
  let (value, scope) := scope.bindFresh wish.base
  if wish.settable then
    let (setter, scope) := scope.bindFresh (setterBase value)
    (⟨value, some setter⟩, scope)
  else (⟨value, none⟩, scope)

/-- Gives names to the owner of a key, unless it has them. -/
def use (view : PageView) (names : PageNames) (key : StateKey) : PageNames :=
  match view.owner? key with
  | none => names
  | some owner =>
      match names.find? owner, (view.entryOf? owner).bind (wish owner) with
      | none, some wish =>
          let (given, scope) := give names.scope wish
          ⟨scope, names.given ++ [(owner, given)]⟩
      | _, _ => names

def uses (view : PageView) : List StateKey :=
  view.entries.flatMap fun entry =>
    match entry.2 with
    | .shared _ => []
    | _ => entry.1 :: view.entryReads entry.2

def ofView (view : PageView) (scope : Scope) : PageNames :=
  (uses view).foldl (use view) ⟨scope, []⟩

/-- The names of a piece of state, which are those of its owner. -/
def of (view : PageView) (names : PageNames) (key : StateKey) : StateNames :=
  ((view.owner? key).bind names.find?).getD .unknown

/-- The values of some state, each once, in order of first use. -/
def valuesOf (view : PageView) (names : PageNames) (keys : List StateKey) : List String :=
  ((keys.map fun key => (names.of view key).value).filter (· ≠ placeholder)).eraseDups

end PageNames

end PageBuilder
