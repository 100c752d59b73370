import PageBuilder.Scope
import PageBuilder.SortedMap
import PageBuilder.Text.Quoted

/-!
The imports of a generated module. Each import has one local alias, which it keeps, and no alias
stands for two imports. Modules are listed in order, and so are the names taken from each.
-/

namespace PageBuilder

inductive Import where
  | named (source name : String)
  | whole (source : String)
  deriving DecidableEq

def Import.text : Import → String
  | .named source name => s!"\x7b {name} \x7d from {Text.quoted source}"
  | .whole source => s!"* from {Text.quoted source}"

inductive ImportError where
  /-- The alias stands for another import, or for a name of the module when there is none. -/
  | aliasTaken (localName : String) (holder : Option Import) (requested : Import)
  /-- The import has an alias already, and another one is asked for. -/
  | aliasKept (kept : String) (requested : Import) (localName : String)
  | notIdentifier (localName : String)
  deriving DecidableEq

def ImportError.conflictText (localName existing requested : String) : String :=
  s!"Naming conflict: Alias {localName} is already bound to {existing}, "
    ++ s!"can't bind it to {requested}"

def ImportError.message : ImportError → String
  | .aliasTaken localName (some holder) requested =>
      conflictText localName holder.text requested.text
  | .aliasTaken localName none requested =>
      conflictText localName "a module binding" requested.text
  | .aliasKept kept requested localName =>
      conflictText kept requested.text s!"{requested.text} as {localName}"
  | .notIdentifier localName => s!"{Text.quoted localName} is not a valid identifier"

structure ModuleImports where
  whole : Option String
  named : SortedMap String
  deriving DecidableEq

namespace ModuleImports

def empty : ModuleImports := ⟨none, .empty⟩

def specifier (entry : String × String) : String :=
  if entry.1 = entry.2 then entry.1 else s!"{entry.1} as {entry.2}"

/-- At most two statements: one for the whole module, one for the names taken from it. -/
def render (source : String) (imports : ModuleImports) : String :=
  let whole := match imports.whole with
    | some localName => s!"import * as {localName} from {Text.quoted source};\n"
    | none => ""
  if imports.named.isEmpty then whole
  else
    let specifiers := ", ".intercalate (imports.named.entries.map specifier)
    whole ++ s!"import \x7b {specifiers} \x7d from {Text.quoted source};\n"

end ModuleImports

structure ImportTable where
  scope : Scope
  modules : SortedMap ModuleImports
  aliases : SortedMap Import

namespace ImportTable

def ofScope (scope : Scope) : ImportTable := ⟨scope, .empty, .empty⟩

def moduleOf (table : ImportTable) (source : String) : ModuleImports :=
  (table.modules.get? source).getD .empty

def aliasOf? (table : ImportTable) (source name : String) : Option String :=
  (table.moduleOf source).named.get? name

def wholeOf? (table : ImportTable) (source : String) : Option String :=
  (table.moduleOf source).whole

def recordNamed (table : ImportTable) (source name localName : String) : ImportTable :=
  let imports := table.moduleOf source
  let imports := { imports with named := imports.named.insert name localName }
  { table with
    modules := table.modules.insert source imports
    aliases := table.aliases.insert localName (.named source name) }

def recordWhole (table : ImportTable) (source localName : String) : ImportTable :=
  let imports := { table.moduleOf source with whole := some localName }
  { table with
    modules := table.modules.insert source imports
    aliases := table.aliases.insert localName (.whole source) }

def importNamed (table : ImportTable) (source name : String) : String × ImportTable :=
  match table.aliasOf? source name with
  | some localName => (localName, table)
  | none =>
      let (localName, scope) := table.scope.bindFresh name
      (localName, { table with scope }.recordNamed source name localName)

/-- Binds an alias for an import, unless the alias stands for something else. -/
def bindAlias (table : ImportTable) (localName : String) (requested : Import) :
    Except ImportError ImportTable :=
  match table.aliases.get? localName with
  | some holder =>
      if holder = requested then .ok table
      else .error (.aliasTaken localName (some holder) requested)
  | none =>
      match table.scope.reserve? localName with
      | some scope => .ok { table with scope }
      | none => .error (.aliasTaken localName none requested)

def importNamedAs (table : ImportTable) (source name localName : String) :
    Except ImportError (String × ImportTable) :=
  if Identifier.ofText localName ≠ localName then .error (.notIdentifier localName)
  else
    match table.aliasOf? source name with
    | some kept =>
        if kept = localName then .ok (localName, table)
        else .error (.aliasKept kept (.named source name) localName)
    | none => do
        let table ← table.bindAlias localName (.named source name)
        .ok (localName, table.recordNamed source name localName)

def importWhole (table : ImportTable) (source localName : String) :
    Except ImportError (String × ImportTable) :=
  match table.wholeOf? source with
  | some kept => .ok (kept, table)
  | none => do
      let table ← table.bindAlias localName (.whole source)
      .ok (localName, table.recordWhole source localName)

/-- A name of the module that is no import, bound as it is. -/
def reserve? (table : ImportTable) (name : String) : Option ImportTable :=
  (table.scope.reserve? name).map fun scope => { table with scope }

/-- A free name of the module that is no import. -/
def declare (table : ImportTable) (wanted : String) : String × ImportTable :=
  let (name, scope) := table.scope.bindFresh wanted
  (name, { table with scope })

def isEmpty (table : ImportTable) : Bool := table.modules.isEmpty

def render (table : ImportTable) : String :=
  String.join (table.modules.entries.map fun entry => entry.2.render entry.1)

end ImportTable

end PageBuilder
