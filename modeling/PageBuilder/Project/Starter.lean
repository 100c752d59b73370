import PageBuilder.Document.Codec
import PageBuilder.Document.Edit
import PageBuilder.Page.Entry

/-!
The document that a new project starts with: one page with a field for a name and a greeting that
reads it. The names of its nodes also identify them.
-/

namespace PageBuilder.Starter

def node (name : String) (draft : NodeDraft) : Node :=
  ⟨name, name, none, draft.attributes, draft.kind⟩

def nodes : List (Node × NodeId × String) :=
  let gap := JsonNumber.int 16 (by decide)
  [(node "home" (.page "Home"), "application", Document.pagesSlot),
    (node "layout" ((NodeDraft.element "Stack").withProp "gap" (.const (.number gap))),
      "home", childrenSlot),
    (node "nameInput"
        ((NodeDraft.element "TextField").withProp "label" (.constString "Your name")),
      "layout", childrenSlot),
    (node "greeting"
        ((NodeDraft.element "Text").withProp "content"
          (.bound "Hello \x7b\x7bnameInput.value\x7d\x7d!" none)),
      "layout", childrenSlot)]

/-- A node that fits nowhere is left out. -/
def place (document : Document) (entry : Node × NodeId × String) : Document :=
  match document.add entry.1 entry.2.1 entry.2.2 none with
  | .ok document => document
  | .error _ => document

def document : Document := nodes.foldl place (Document.ofRoot "application")

end PageBuilder.Starter
