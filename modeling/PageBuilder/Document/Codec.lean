import PageBuilder.Document.Check
import PageBuilder.Json.Printer
import PageBuilder.Json.Reader
import PageBuilder.Node.Codec

/-!
Documents as JSON: the root, and the nodes by identifier. A text is taken as a document only if
its nodes make one.
-/

namespace PageBuilder

inductive LoadFault where
  | unreadable
  | invalid (violations : List Violation)
  deriving DecidableEq

namespace Document

def invalidMessage (violations : List Violation) : String :=
  "Invalid document: " ++ "; ".intercalate (violations.map Violation.message)

def tree (document : Document) : JsonTree :=
  .object
    [("root", .string document.root),
      ("nodes", .object (document.nodes.entries.map fun entry => (entry.1, entry.2.tree)))]

def text (document : Document) : String := document.tree.indented

def decodeParts : Decoder (NodeId × SortedMap Node) := fun place written => do
  match ← Decode.record? place written ["root", "nodes"] with
  | [root, nodes] =>
      let place := place.inside
      some
        (← Decode.required Decode.string place root,
          ← Decode.required (Decode.map Node.decode) place nodes)
  | _ => none

def ofParts (parts : Option (NodeId × SortedMap Node)) : Except LoadFault Document :=
  match parts with
  | none => .error .unreadable
  | some (root, nodes) =>
      match ofNodes root nodes with
      | .ok document => .ok document
      | .error violations => .error (.invalid violations)

def ofText (text : String) : Except LoadFault Document :=
  ofParts (Decode.readText? decodeParts (Json.read? text))

end Document

end PageBuilder
