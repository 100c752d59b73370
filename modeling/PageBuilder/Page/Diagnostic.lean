import PageBuilder.Node

/-!
Warnings: what is wrong with a page that is compiled all the same.
-/

namespace PageBuilder

inductive DiagnosticKind where
  | unresolvedInterpolation
  | malformedInterpolation
  | misplacedScript
  | unknownComponent
  | incompleteState
  | layout
  deriving DecidableEq

structure Diagnostic where
  kind : DiagnosticKind
  node : Option NodeId
  prop : Option String
  message : String
  deriving DecidableEq

namespace Diagnostic

def inProp (kind : DiagnosticKind) (node : NodeId) (prop message : String) : Diagnostic :=
  ⟨kind, some node, some prop, message⟩

def text (diagnostic : Diagnostic) : String :=
  match diagnostic.node, diagnostic.prop with
  | some node, some prop => s!"{node}.{prop}: {diagnostic.message}"
  | some node, none => s!"{node}: {diagnostic.message}"
  | none, _ => diagnostic.message

end Diagnostic

end PageBuilder
