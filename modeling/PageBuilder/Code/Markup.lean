import PageBuilder.Code.Indent
import PageBuilder.Page.Entry

/-!
Fragments of markup. An element without named slots opens on one line; with named slots every
attribute and every slot has lines of its own.
-/

namespace PageBuilder.Code

def joinFragments (fragments : List String) : String := "\n".intercalate fragments

/-- One fragment as it is, any other number of them inside a bare tag. -/
def wrapFragments : List String → String
  | [single] => single
  | fragments => "<>\n" ++ indentLines 1 (joinFragments fragments) ++ "</>"

structure MarkupTag where
  name : String
  attributes : List (String × String)
  slots : SortedMap (List String)

namespace MarkupTag

def children (tag : MarkupTag) : List String := (tag.slots.get? childrenSlot).getD []

/-- The slots besides the children that hold something. -/
def namedSlots (tag : MarkupTag) : List (String × List String) :=
  tag.slots.entries.filter fun slot => slot.1 ≠ childrenSlot && !slot.2.isEmpty

def body (tag : MarkupTag) : String :=
  ">\n" ++ indentLines 1 (joinFragments tag.children) ++ s!"</{tag.name}>"

def inlineAttribute (entry : String × String) : String := s!" {entry.1}={entry.2}"

def attributeLine (entry : String × String) : String := s!"  {entry.1}={entry.2}\n"

def slotLines (slot : String × List String) : String :=
  s!"  {slot.1}=\x7b\n" ++ indentLines 2 (wrapFragments slot.2) ++ "  \x7d\n"

def render (tag : MarkupTag) : String :=
  if tag.namedSlots.isEmpty then
    s!"<{tag.name}" ++ String.join (tag.attributes.map inlineAttribute)
      ++ (if tag.children.isEmpty then " />" else tag.body)
  else
    s!"<{tag.name}\n" ++ String.join (tag.attributes.map attributeLine)
      ++ String.join (tag.namedSlots.map slotLines)
      ++ (if tag.children.isEmpty then "/>" else tag.body)

end MarkupTag

end PageBuilder.Code
