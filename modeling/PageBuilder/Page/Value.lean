import PageBuilder.Json.Printer
import PageBuilder.Page.Diagnostic
import PageBuilder.Page.Names

/-!
The code of values. What cannot be resolved becomes a placeholder, and a warning says so.
-/

namespace PageBuilder

/-- A value stands in a declaration, where only plain code works, or in what the page shows. -/
inductive ValuePosition where
  | state
  | markup
  deriving DecidableEq

/-- Stands for a secret, of which the code never holds more than the reference. -/
def secretToken (reference : String) : String :=
  s!"\x7b \"$$secret\": {Json.stringText reference} \x7d"

namespace PageView

/-- Characters of a text inside backticks. Nothing in them ends the text or opens code. -/
def escapeLiteral : List Char → List Char
  | [] => []
  | '$' :: '\x7b' :: rest => '\\' :: '$' :: '\x7b' :: escapeLiteral rest
  | char :: rest =>
      (if char = '\\' then ['\\', '\\']
        else if char = '`' then ['\\', '`']
        else if char = '\n' then ['\\', 'n']
        else if char = '\r' then ['\\', 'r']
        else [char])
        ++ escapeLiteral rest

def pieceOfCode (format : BoundFormat) (code : String) : String :=
  match format with
  | .literal => "$\x7b" ++ code ++ "\x7d"
  | .expression => code

def pieceOfText (format : BoundFormat) (chars : List Char) : String :=
  match format with
  | .literal => String.ofList (escapeLiteral chars)
  | .expression => String.ofList chars

def referenceCode (view : PageView) (names : PageNames) (reference : Reference) : String :=
  match view.referenceTarget? reference with
  | some (key, path) => (names.of view key).value ++ PathSegment.textOf path
  | none => placeholder

def partCode (view : PageView) (names : PageNames) (format : BoundFormat) :
    TemplatePart → String
  | .text chars => pieceOfText format chars
  | .interpolation reference => pieceOfCode format (view.referenceCode names reference)
  | .invalid _ _ => pieceOfCode format placeholder

/-- A text that is one interpolation is code; any other is a text with code in it. -/
def formatOf (template : Template) (format : Option BoundFormat) : BoundFormat :=
  format.getD (if template.isSingle then .expression else .literal)

def templateCode (view : PageView) (names : PageNames) (text : String)
    (format : Option BoundFormat) : String :=
  let template := Template.read text
  let format := formatOf template format
  let pieces := String.join (template.parts.map (view.partCode names format))
  match format with
  | .literal => "`" ++ pieces ++ "`"
  | .expression => pieces

def valueCode (view : PageView) (names : PageNames) : Bindable → String
  | .const value => value.text
  | .binding node slot =>
      match view.target? node slot with
      | some key => (names.of view key).value
      | none => placeholder
  | .bound text format => view.templateCode names text format
  | .script _ => placeholder
  | .secret reference => secretToken reference

/-- A value in what the page shows. -/
def valueProp (view : PageView) (names : PageNames) : Bindable → ResolvedProp
  | .script text => .script text
  | value => .code (view.valueCode names value)

def misplacedScript (owner : NodeId) (prop : String) : Diagnostic :=
  .inProp .misplacedScript owner prop "Runtime expressions are only evaluated in element props"

def partDiagnostic? (view : PageView) (owner : NodeId) (prop : String) :
    TemplatePart → Option Diagnostic
  | .text _ => none
  | .interpolation reference =>
      match view.referenceTarget? reference with
      | some _ => none
      | none =>
          some (.inProp .unresolvedInterpolation owner prop
            s!"Can't resolve `\x7b\x7b{reference.text}\x7d\x7d`")
  | .invalid written fault =>
      some (.inProp .malformedInterpolation owner prop
        s!"Malformed interpolation {String.ofList written}: {fault.message}")

def valueDiagnostics (view : PageView) (position : ValuePosition) (owner : NodeId)
    (prop : String) : Bindable → List Diagnostic
  | .binding node slot =>
      match view.target? node slot with
      | some _ => []
      | none =>
          [.inProp .unresolvedInterpolation owner prop s!"Can't resolve binding to {node}.{slot}"]
  | .bound text _ => (Template.read text).parts.filterMap (view.partDiagnostic? owner prop)
  | .script _ => if position = .state then [misplacedScript owner prop] else []
  | _ => []

end PageView

end PageBuilder
