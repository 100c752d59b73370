import PageBuilder.FreshName
import PageBuilder.Identifier

/-!
Scopes of generated code. A scope knows the names bound in it and those bound around it; a scope
below it starts with both of these around, and nothing bound in it changes them.
-/

namespace PageBuilder

structure Scope where
  /-- Names bound here, the newest first. -/
  own : List String
  /-- Names bound in the scopes around. -/
  around : List String
  deriving DecidableEq

namespace Scope

def root : Scope := ⟨[], []⟩

def below (scope : Scope) : Scope := ⟨[], scope.own ++ scope.around⟩

def visible (scope : Scope) : List String := scope.own ++ scope.around

def has (scope : Scope) (name : String) : Bool := scope.visible.contains name

def bind (scope : Scope) (name : String) : Scope := { scope with own := name :: scope.own }

/-- Binds the name as it is, unless it is taken or no name at all. -/
def reserve? (scope : Scope) (name : String) : Option Scope :=
  if scope.has name || Identifier.isReserved name then none else some (scope.bind name)

def reserve (scope : Scope) (name : String) : Scope := (scope.reserve? name).getD scope

/-- A free identifier close to the wanted name. -/
def freshName (scope : Scope) (wanted : String) : String :=
  FreshName.choose (Identifier.ofText wanted) (scope.visible ++ Identifier.reservedWords)

def bindFresh (scope : Scope) (wanted : String) : String × Scope :=
  let name := scope.freshName wanted
  (name, scope.bind name)

def ownSorted (scope : Scope) : List String := scope.own.mergeSort

theorem visible_below (scope : Scope) : scope.below.visible = scope.visible := rfl

end Scope

end PageBuilder
