import PageBuilder.Code.Declaration
import PageBuilder.Code.Layout
import PageBuilder.Code.Markup
import PageBuilder.Component.Catalog
import PageBuilder.ImportTable
import PageBuilder.Page.Bindings

/-!
Compiles pages. A page becomes a module with one component: its imports, the declarations of its
state, and what it shows.
-/

namespace PageBuilder

structure CompileOptions where
  /-- Wrap every element in a marker that names its node. -/
  editorMode : Bool
  pretty : Bool
  runtimeModule : String

def CompileOptions.defaultRuntimeModule : String := "@pagecraft/runtime"

def CompileOptions.usual : CompileOptions := ⟨false, true, defaultRuntimeModule⟩

structure CompiledPage where
  page : NodeId
  name : String
  component : String
  source : String
  diagnostics : List Diagnostic
  deriving DecidableEq

def CompiledPage.fileName (page : CompiledPage) : String := page.component ++ ".jsx"

inductive CompileFault where
  | page (fault : PageFault)
  | imports (error : ImportError)
  deriving DecidableEq

def CompileFault.message : CompileFault → String
  | .page (.lookup fault) => s!"Invalid page: {fault.message}"
  | .page (.cycle found) => found.message id
  | .imports error => s!"Import allocation failed: {error.message}"

def reactModule : String := "react"

def reactAlias : String := "React"

/-- What generated code takes from the runtime module. -/
inductive RuntimeName where
  | useDataQuery
  | useFetchedState
  | evaluateExpression
  | nodeMarker
  deriving DecidableEq

def RuntimeName.text : RuntimeName → String
  | .useDataQuery => "useDataQuery"
  | .useFetchedState => "useFetchedState"
  | .evaluateExpression => "evaluateExpression"
  | .nodeMarker => "NodeMarker"

namespace ComponentName

def isWordChar (char : Char) : Bool := Identifier.isLetter char || Identifier.isDigit char

/-- The runs of letters and digits. `word` holds the current one, newest first. -/
def words (word : List Char) : List Char → List (List Char)
  | [] => [word.reverse]
  | char :: rest =>
      if isWordChar char then words (char :: word) rest
      else word.reverse :: words [] rest

def capitalize : List Char → List Char
  | [] => []
  | first :: rest => first.toUpper :: rest

/-- The words of a name with a capital each. A name of the component has to start with a letter. -/
def ofPageName (name : String) : String :=
  match (words [] name.toList).flatMap capitalize with
  | [] => "Page"
  | first :: rest =>
      if Identifier.isDigit first then "Page" ++ String.ofList (first :: rest)
      else String.ofList (first :: rest)

end ComponentName

namespace PageCompiler

def definition? (catalog : Catalog) (element : Node) : Option ComponentDefinition :=
  element.component?.bind catalog.find?

def hasRuntimeProp (catalog : Catalog) (element : Node) : Bool :=
  (PageView.givenProps element).any fun entry =>
    PageView.isScript entry.2
      && !catalog.schema.isControlled (element.component?.getD "") entry.1

def pageStateTypes (document : Document) (page : NodeId) : List NodeType :=
  ((document.children page).map Node.type).filter NodeType.isPageState

def runtimeNames (document : Document) (page : NodeId) (catalog : Catalog)
    (options : CompileOptions) : List RuntimeName :=
  let elements := document.markupElements page
  let states := pageStateTypes document page
  let known := elements.filter fun element => (definition? catalog element).isSome
  (if states.contains .queryState then [.useDataQuery] else [])
    ++ (if states.contains .fetchedState then [.useFetchedState] else [])
    ++ (if known.any (hasRuntimeProp catalog) then [.evaluateExpression] else [])
    ++ (if options.editorMode && !elements.isEmpty then [.nodeMarker] else [])

def importComponent (catalog : Catalog) (table : ImportTable) (element : Node) : ImportTable :=
  match definition? catalog element with
  | some definition => (table.importNamed definition.source definition.exported).2
  | none => table

/-- The table holds the module of the framework first, while its alias is free. -/
def startTable : Except ImportError ImportTable := do
  let (_, table) ← (ImportTable.ofScope Scope.root).importWhole reactModule reactAlias
  .ok table

def importRuntime (options : CompileOptions) (table : ImportTable) (name : RuntimeName) :
    ImportTable :=
  (table.importNamed options.runtimeModule name.text).2

def importTable (document : Document) (page : NodeId) (catalog : Catalog)
    (options : CompileOptions) : Except ImportError ImportTable := do
  let start ← startTable
  let table := (document.markupElements page).foldl (importComponent catalog) start
  .ok ((runtimeNames document page catalog options).foldl (importRuntime options) table)

def unknownComponent? (catalog : Catalog) (element : Node) : Option Diagnostic :=
  match definition? catalog element with
  | some _ => none
  | none =>
      let message := match element.component? with
        | some component => s!"Unknown component `{component}`"
        | none => s!"Element `{element.name}` has no component"
      some (.inProp .unknownComponent element.id "component" message)

structure MarkupContext where
  document : Document
  bindings : PageBindings
  catalog : Catalog
  imports : ImportTable
  react : String
  evaluate : String
  pageScope : String
  marker : Option String

def braced (code : String) : String := "\x7b" ++ code ++ "\x7d"

def evaluation (context : MarkupContext) (script : String) : String :=
  s!"{context.evaluate}({Json.stringText script}, {context.pageScope})"

def changeEvent? (definition : ComponentDefinition) (prop : String) : Option String :=
  (definition.props.get? prop).bind PropDefinition.changeEvent

/-- A prop, followed by its change event where the element does not set that itself. -/
def propAttributes (context : MarkupContext) (definition : ComponentDefinition)
    (props : SortedMap ResolvedProp) (entry : String × ResolvedProp) : List (String × String) :=
  match entry.2 with
  | .code code => [(entry.1, braced code)]
  | .script script => [(entry.1, braced (evaluation context script))]
  | .controlled value setter =>
      (entry.1, braced value) ::
        match setter, changeEvent? definition entry.1 with
        | some setter, some event =>
            if props.contains event then [] else [(event, braced setter)]
        | _, _ => []

def attributes (context : MarkupContext) (definition : ComponentDefinition) (element : Node) :
    List (String × String) :=
  match context.bindings.props.get? element.id with
  | some props => props.entries.flatMap (propAttributes context definition props)
  | none => []

def aliasOr (imports : ImportTable) (source name : String) : String :=
  (imports.aliasOf? source name).getD name

/-- An element of an unknown component shows all that its slots hold. -/
def elementTag (context : MarkupContext) (element : Node) (slots : SortedMap (List String)) :
    Code.MarkupTag :=
  match context.catalog.find? (element.component?.getD "") with
  | some definition =>
      ⟨aliasOr context.imports definition.source definition.exported,
        attributes context definition element, slots⟩
  | none =>
      ⟨context.react ++ ".Fragment", [],
        SortedMap.empty.insert childrenSlot slots.values.flatten⟩

def marked (context : MarkupContext) (element : Node) (fragment : String) : String :=
  match context.marker with
  | none => fragment
  | some marker =>
      s!"<{marker} nodeId={Json.stringText element.id}>\n" ++ Code.indentLines 1 fragment
        ++ s!"</{marker}>"

def isElement (node : Node) : Bool := node.type = .element

/-- The fragments of elements with what lies at most `depth` levels below them. -/
def renderElements (context : MarkupContext) : Nat → List Node → List String
  | 0, _ => []
  | depth + 1, nodes =>
      (nodes.filter isElement).map fun element =>
        let slots := (context.document.childSlots element.id).map fun slot =>
          (slot.1, renderElements context depth slot.2)
        marked context element (elementTag context element (SortedMap.ofList slots)).render

def writeDeclaration (hooks : Code.Hooks) (writer : Code.Writer)
    (declaration : StateDeclaration) : Code.Writer :=
  (writer.addIndented (Code.declaration hooks declaration.names declaration.source)).add "\n"

def scopeLiteral (entries : List (String × String)) : String :=
  if entries.isEmpty then "\x7b\x7d"
  else
    let fields := entries.map fun entry => s!"{entry.1}: {entry.2}"
    "\x7b " ++ ", ".intercalate fields ++ " \x7d"

def writeBody (bindings : PageBindings) (hooks : Code.Hooks) (pageScope : Option String)
    (writer : Code.Writer) : Code.Writer :=
  let writer := bindings.declarations.foldl (writeDeclaration hooks) writer
  let writer := match pageScope with
    | some name => writer.addLine s!"const {name} = {scopeLiteral bindings.runtimeScope};"
    | none => writer
  if bindings.declarations.isEmpty && pageScope.isNone then writer else writer.add "\n"

def writeMarkup (roots : List String) (writer : Code.Writer) : Code.Writer :=
  if roots.isEmpty then writer.addLine "return null;"
  else
    (((writer.addLine "return (").indent.addLines (Code.wrapFragments roots)).dedent).addLine ");"

/-- The page with names for everything that its module holds. -/
structure Plan where
  page : Node
  imports : ImportTable
  component : String
  bindings : PageBindings
  pageScope : Option String

def plan (document : Document) (page : Node) (catalog : Catalog) (options : CompileOptions) :
    Except CompileFault Plan := do
  let table ← (importTable document page.id catalog options).mapError .imports
  let (component, imports) := table.declare (ComponentName.ofPageName page.name)
  let bindings ← (document.bindings page.id catalog.schema imports.scope.below).mapError .page
  let pageScope :=
    if bindings.usesRuntime then some (bindings.scope.freshName "pageScope") else none
  .ok ⟨page, imports, component, bindings, pageScope⟩

def Plan.hooks (plan : Plan) (options : CompileOptions) : Code.Hooks where
  react := (plan.imports.wholeOf? reactModule).getD reactAlias
  useDataQuery := aliasOr plan.imports options.runtimeModule RuntimeName.useDataQuery.text
  useFetchedState := aliasOr plan.imports options.runtimeModule RuntimeName.useFetchedState.text

def Plan.context (plan : Plan) (document : Document) (catalog : Catalog)
    (options : CompileOptions) : MarkupContext where
  document := document
  bindings := plan.bindings
  catalog := catalog
  imports := plan.imports
  react := (plan.hooks options).react
  evaluate := aliasOr plan.imports options.runtimeModule RuntimeName.evaluateExpression.text
  pageScope := plan.pageScope.getD "\x7b\x7d"
  marker :=
    if options.editorMode then
      some (aliasOr plan.imports options.runtimeModule RuntimeName.nodeMarker.text)
    else none

def Plan.roots (plan : Plan) (document : Document) (catalog : Catalog)
    (options : CompileOptions) : List String :=
  renderElements (plan.context document catalog options) document.size
    (document.childrenIn plan.page.id childrenSlot)

/-- The module before it is laid out. Further lines of given code keep their indentation. -/
def Plan.rawSource (plan : Plan) (document : Document) (catalog : Catalog)
    (options : CompileOptions) : String :=
  let writer := ((Code.Writer.empty.add plan.imports.render).add "\n").addLine
    s!"export default function {plan.component}() \x7b"
  let writer := writeBody plan.bindings (plan.hooks options) plan.pageScope writer.indent
  let writer := writeMarkup (plan.roots document catalog options) writer
  (writer.dedent.addLine "\x7d").text

/-- A module that cannot be laid out stays as it is, with a warning. -/
def finish (options : CompileOptions) (raw : String) : String × List Diagnostic :=
  if options.pretty then
    match Code.layout raw with
    | .ok source => (source, [])
    | .error fault =>
        (raw, [⟨.layout, none, none, s!"Output left unformatted: {fault.message}"⟩])
  else (raw, [])

end PageCompiler

open PageCompiler in
def Document.compilePage (document : Document) (id : NodeId) (catalog : Catalog)
    (options : CompileOptions) : Except CompileFault CompiledPage := do
  match document.nodeOfType id .page with
  | .error fault => .error (.page (.lookup fault))
  | .ok page => do
      let plan ← plan document page catalog options
      let (source, layoutDiagnostics) := finish options (plan.rawSource document catalog options)
      .ok
        { page := page.id
          name := page.name
          component := plan.component
          source
          diagnostics :=
            (document.markupElements page.id).filterMap (unknownComponent? catalog)
              ++ plan.bindings.diagnostics ++ layoutDiagnostics }

structure PageOutput where
  page : NodeId
  name : String
  result : Except CompileFault CompiledPage

def Document.compilePages (document : Document) (pages : List Node) (catalog : Catalog)
    (options : CompileOptions) : List PageOutput :=
  pages.map fun page => ⟨page.id, page.name, document.compilePage page.id catalog options⟩

/-- Every page by itself; one that fails does not stop the others. -/
def Document.compileAll (document : Document) (catalog : Catalog) (options : CompileOptions) :
    List PageOutput :=
  document.compilePages document.pages catalog options

end PageBuilder
