import PageBuilder.Project.Command.Check
import PageBuilder.Project.Command.Compile
import PageBuilder.Project.Command.Init

/-!
The commands on a project. What one does depends only on what is found where the configuration and
the document should be.
-/

namespace PageBuilder

inductive Command where
  | init (request : InitRequest)
  | compile (request : CompileRequest)
  | check (request : CheckRequest)

namespace Command

def configPath (project : String) : String := Path.join project Config.fileName

def documentPath (command : Command) (project : String) (config : Found) : String :=
  let inConfig := match Config.load project config with
    | .ok config => config.documentPath
    | .error _ => Config.usualDocument
  Path.join project
    (match command with
    | .init request => request.document
    | .compile _ | .check _ => inConfig)

def script (command : Command) (project : String) (config document : Found) : Script :=
  match command with
  | .init request => request.script project config document
  | .compile request => request.script project config document
  | .check request => request.script project config document

/-- What a command does where this is found at each path. -/
def scriptAt (command : Command) (project : String) (find : String → Found) : Script :=
  let config := find (configPath project)
  command.script project config (find (command.documentPath project config))

def run (command : Command) (project : String) (disk : Disk) : Outcome :=
  (command.scriptAt project disk.find).run disk

end Command

end PageBuilder
