import PageBuilder.Json.Printer
import PageBuilder.Json.Reader
import PageBuilder.Page.Compiler
import PageBuilder.Project.Fault

/-!
The configuration of a project. A project without a configuration file has the usual one.
-/

namespace PageBuilder

structure Config where
  documentPath : String
  outDir : String
  editorMode : Bool
  pretty : Bool
  runtimeModule : String
  /-- Come beside the components that are always there, or in their place. -/
  components : List ComponentDefinition

namespace Config

def fileName : String := "pagecraft.config.json"

def usualDocument : String := "app.json"

def usualOutDir : String := "generated"

def usual : Config :=
  ⟨usualDocument, usualOutDir, false, true, CompileOptions.defaultRuntimeModule, []⟩

def fieldNames : List String :=
  ["documentPath", "outDir", "editorMode", "pretty", "runtimeModule", "components"]

def decode : Decoder Config := fun place written => do
  match ← Decode.record? place written fieldNames with
  | [documentPath, outDir, editorMode, pretty, runtimeModule, components] =>
      let place := place.inside
      some
        { documentPath := ← Decode.defaulted usualDocument Decode.string place documentPath
          outDir := ← Decode.defaulted usualOutDir Decode.string place outDir
          editorMode := ← Decode.defaulted false Decode.bool place editorMode
          pretty := ← Decode.defaulted true Decode.bool place pretty
          runtimeModule :=
            ← Decode.defaulted CompileOptions.defaultRuntimeModule Decode.string place
              runtimeModule
          components :=
            ← Decode.defaulted [] (Decode.list ComponentDefinition.decode) place components }
  | _ => none

def tree (config : Config) : JsonTree :=
  .object
    ([("documentPath", .string config.documentPath), ("outDir", .string config.outDir),
      ("editorMode", .bool config.editorMode), ("pretty", .bool config.pretty),
      ("runtimeModule", .string config.runtimeModule)]
      ++ if config.components.isEmpty then []
        else [("components", .array (config.components.map ComponentDefinition.tree))])

def text (config : Config) : String := config.tree.indented

def ofText? (text : String) : Option Config := Decode.readText? decode (Json.read? text)

def load (project : String) : Found → Except ProjectFault Config
  | .nothing => .ok usual
  | .unreadable fault => .error (.file fault)
  | .text content =>
      match ofText? content with
      | some config => .ok config
      | none => .error (.badConfig (Path.join project fileName))

def options (config : Config) (editor : Bool) : CompileOptions where
  editorMode := config.editorMode || editor
  pretty := config.pretty
  runtimeModule := config.runtimeModule

def catalog (config : Config) : Catalog := Catalog.builtin.extend config.components

end Config

end PageBuilder
