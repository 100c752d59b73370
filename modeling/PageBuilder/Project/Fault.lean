import PageBuilder.Project.Disk

/-!
Why a command fails. Paths are given as they are shown.
-/

namespace PageBuilder

inductive ProjectFault where
  | file (fault : FileFault)
  | badConfig (path : String)
  | documentMissing (path : String)
  | documentUnreadable (path : String)
  | documentMalformed (path : String)
  | documentInvalid (path : String) (problems : Nat)
  | pageMissing (name : String)
  | pagesNotCompiled (count : Nat)
  | pagesWithErrors (count : Nat)
  | warningsDenied (count : Nat)
  deriving DecidableEq

def ProjectFault.message : ProjectFault → String
  | .file fault => fault.message
  | .badConfig path => s!"Invalid {path}"
  | .documentMissing path =>
      s!"Document not found: {path} (run `pagecraft init` to create one)"
  | .documentUnreadable path => s!"Cannot read {path}"
  | .documentMalformed path => s!"Cannot load {path}"
  | .documentInvalid path problems => s!"{path} is not a valid document ({problems} problems)"
  | .pageMissing name => s!"No page named {name}"
  | .pagesNotCompiled count => s!"{count} page(s) failed to compile"
  | .pagesWithErrors count => s!"{count} page(s) have errors"
  | .warningsDenied count => s!"{count} warning(s) found"

end PageBuilder
