import PageBuilder.Identifier
import PageBuilder.Json.Printer
import PageBuilder.Page.State

/-!
The statements that declare the state of a page.
-/

namespace PageBuilder.Code

/-- The local names of what a page calls. -/
structure Hooks where
  react : String
  useDataQuery : String
  useFetchedState : String

def Hooks.usual : Hooks := ⟨"React", "useDataQuery", "useFetchedState"⟩

def objectField (entry : String × String) : String :=
  if Identifier.ofText entry.1 = entry.1 then s!"{entry.1}: {entry.2}"
  else s!"{Json.stringText entry.1}: {entry.2}"

def objectLiteral (entries : List (String × String)) : String :=
  if entries.isEmpty then "\x7b\x7d"
  else "\x7b " ++ ", ".intercalate (entries.map objectField) ++ " \x7d"

def listLiteral (items : List String) : String := "[" ++ ", ".intercalate items ++ "]"

/-- The code of a derived state has lines of its own, so that a comment at its end does not reach
what follows. -/
def sourceCode (hooks : Hooks) : StateSource → String
  | .pageSlot initial => s!"{hooks.react}.useState({initial})"
  | .controlledPair none => s!"{hooks.react}.useState()"
  | .controlledPair (some initial) => s!"{hooks.react}.useState({initial})"
  | .computed expression reads =>
      s!"{hooks.react}.useMemo(() => {expression}, {listLiteral reads})"
  | .derived code params reads =>
      s!"{hooks.react}.useMemo(() => (\n{code}\n)({objectLiteral params}), {listLiteral reads})"
  | .query api node params =>
      s!"{hooks.useDataQuery}({Json.stringText api}, {Json.stringText node}, {objectLiteral params})"
  | .fetched params => s!"{hooks.useFetchedState}({objectLiteral params})"

def targetCode (names : StateNames) : String :=
  match names.setter with
  | some setter => s!"[{names.value}, {setter}]"
  | none => names.value

def declaration (hooks : Hooks) (names : StateNames) (source : StateSource) : String :=
  s!"const {targetCode names} = {sourceCode hooks source};"

end PageBuilder.Code
