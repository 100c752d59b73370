import PageBuilder.Document.Codec
import PageBuilder.Project.Config
import PageBuilder.Project.Script

/-!
The document of a project, as it was found. What is wrong with it is told line by line.
-/

namespace PageBuilder

def failureMark : String := "  ✗ "

/-- The document that was found at a path, or how the command ends without one. -/
def loadDocument (path : String) : Found → Except Script Document
  | .nothing => .error (.failed [] (.documentMissing path))
  | .unreadable _ => .error (.failed [] (.documentUnreadable path))
  | .text content =>
      match Document.ofText content with
      | .ok document => .ok document
      | .error .unreadable => .error (.failed [] (.documentMalformed path))
      | .error (.invalid violations) =>
          .error (.failed
            (violations.map fun violation => .warn (failureMark ++ violation.message))
            (.documentInvalid path violations.length))

def withDocument (path : String) (found : Found) (next : Document → Script) : Script :=
  match loadDocument path found with
  | .ok document => next document
  | .error script => script

def withConfig (project : String) (found : Found) (next : Config → Script) : Script :=
  match Config.load project found with
  | .ok config => next config
  | .error fault => .failed [] fault

def failureLine (output : PageOutput) (fault : CompileFault) : String :=
  failureMark ++ s!"{output.name} - {fault.message}"

def warningSteps (diagnostics : List Diagnostic) : List Effect :=
  diagnostics.map fun diagnostic => .print ("    warning: " ++ diagnostic.text)

namespace PageOutput

def compiled (output : PageOutput) : Bool :=
  match output.result with
  | .ok _ => true
  | .error _ => false

def warnings (output : PageOutput) : Nat :=
  match output.result with
  | .ok page => page.diagnostics.length
  | .error _ => 0

end PageOutput

def failureCount (outputs : List PageOutput) : Nat :=
  outputs.countP fun output => !output.compiled

def warningCount (outputs : List PageOutput) : Nat :=
  outputs.foldl (fun count output => count + output.warnings) 0

end PageBuilder
