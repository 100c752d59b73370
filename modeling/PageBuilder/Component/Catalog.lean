import PageBuilder.Component.Basic
import PageBuilder.Page.Schema

/-!
Catalogs of components by name. A definition replaces an earlier one of its name.
-/

namespace PageBuilder

structure Catalog where
  components : SortedMap ComponentDefinition

namespace Catalog

def empty : Catalog := ⟨.empty⟩

def register (catalog : Catalog) (definition : ComponentDefinition) : Catalog :=
  ⟨catalog.components.insert definition.name definition⟩

def extend (catalog : Catalog) (definitions : List ComponentDefinition) : Catalog :=
  definitions.foldl register catalog

def find? (catalog : Catalog) (component : String) : Option ComponentDefinition :=
  catalog.components.get? component

def names (catalog : Catalog) : List String := catalog.components.keys

def schema (catalog : Catalog) : PropSchema where
  knows component := (catalog.find? component).isSome
  controlled component :=
    match catalog.find? component with
    | some definition => definition.controlled.map Prod.fst
    | none => []
  default? component prop := do
    let definition ← catalog.find? component
    let prop ← definition.props.get? prop
    prop.default

def builtinSource : String := "@pagecraft/components"

def plain (kind : PropKind) : PropDefinition := .ofKind kind

def withDefault (kind : PropKind) (value : Json) : PropDefinition := ⟨kind, some value, none⟩

def controlled (kind : PropKind) (value : Json) (event : String) : PropDefinition :=
  ⟨kind, some value, some event⟩

def builtinComponent (name : String) (props : List (String × PropDefinition)) :
    ComponentDefinition :=
  ⟨name, builtinSource, none, SortedMap.ofList props⟩

def builtinComponents : List ComponentDefinition :=
  [builtinComponent "Text" [("content", plain .string), ("variant", plain .string)],
    builtinComponent "Button"
      [("label", plain .string), ("disabled", plain .boolean), ("onClick", plain .event)],
    builtinComponent "TextField"
      [("value", controlled .string (.string "") "onChange"), ("label", plain .string),
        ("placeholder", plain .string)],
    builtinComponent "Select"
      [("value", controlled .json .null "onChange"),
        ("options", withDefault .json (.array [])), ("label", plain .string)],
    builtinComponent "Image" [("src", plain .string), ("alt", plain .string)],
    builtinComponent "Stack"
      [("direction", withDefault .string (.string "column")), ("gap", plain .number)],
    builtinComponent "DataGrid"
      [("rows", withDefault .json (.array [])), ("columns", plain .json),
        ("selection", controlled .json .null "onSelectionChange")]]

def builtin : Catalog := empty.extend builtinComponents

end Catalog

end PageBuilder
