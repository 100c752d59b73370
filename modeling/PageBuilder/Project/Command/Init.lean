import PageBuilder.Project.Config
import PageBuilder.Project.Script
import PageBuilder.Project.Starter

/-!
Starts a project: a configuration file, and a document to begin with unless there is one.
-/

namespace PageBuilder

structure InitRequest where
  document : String
  outDir : String
  /-- Replace a configuration that is there already. -/
  force : Bool

namespace InitRequest

def config (request : InitRequest) : Config :=
  { Config.usual with documentPath := request.document, outDir := request.outDir }

def documentSteps (request : InitRequest) (project : String) : List Effect :=
  let path := Path.join project request.document
  [.makeDirectories (Path.parent path), .write path Starter.document.text,
    .print s!"  ✓ Created {request.document}"]

def configSteps (request : InitRequest) (project : String) : List Effect :=
  [.write (Path.join project Config.fileName) request.config.text,
    .print s!"  ✓ Created {Config.fileName}"]

def closing (request : InitRequest) : List Effect :=
  [.print "", .print "✅ Project initialized!", .print "", .print "Next steps:",
    .print s!"  1. Edit {request.document} in the editor", .print "  2. Run: pagecraft compile",
    .print s!"  3. Check output in {request.outDir}/"]

def script (request : InitRequest) (project : String) (config document : Found) : Script :=
  if config.isThere && !request.force then
    .done
      [.print s!"⚠️ {Config.fileName} already exists", .print "Use --force to overwrite"]
  else
    .done
      (.print "📝 Initializing Pagecraft project..."
        :: (if document.isThere then [] else request.documentSteps project)
        ++ request.configSteps project ++ request.closing)

end InitRequest

end PageBuilder
