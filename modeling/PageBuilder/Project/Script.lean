import PageBuilder.Project.Fault

/-!
What a command does: lines that it prints, directories and files that it makes, and the fault that
it ends with, if any. A step on the disk that fails ends the command there.
-/

namespace PageBuilder

inductive Effect where
  | print (line : String)
  | warn (line : String)
  | makeDirectories (path : String)
  | write (path text : String)

structure Script where
  steps : List Effect
  fault : Option ProjectFault

namespace Script

def done (steps : List Effect) : Script := ⟨steps, none⟩

def failed (steps : List Effect) (fault : ProjectFault) : Script := ⟨steps, some fault⟩

def after (steps : List Effect) (script : Script) : Script :=
  { script with steps := steps ++ script.steps }

end Script

/-- What can be seen once a command has run. -/
structure Outcome where
  disk : Disk
  printed : String
  warned : String
  fault : Option ProjectFault

namespace Outcome

def start (disk : Disk) : Outcome := ⟨disk, "", "", none⟩

/-- What an attempt leaves on the disk stays, also where it fails. -/
def attempted (outcome : Outcome) (attempt : Attempt) : Except Outcome Outcome :=
  match attempt.fault with
  | none => .ok { outcome with disk := attempt.disk }
  | some fault => .error { outcome with disk := attempt.disk, fault := some (.file fault) }

def step (outcome : Outcome) : Effect → Except Outcome Outcome
  | .print line => .ok { outcome with printed := outcome.printed ++ line ++ "\n" }
  | .warn line => .ok { outcome with warned := outcome.warned ++ line ++ "\n" }
  | .makeDirectories path => outcome.attempted (outcome.disk.makeDirectories path)
  | .write path text => outcome.attempted (outcome.disk.write path text)

def steps (outcome : Outcome) : List Effect → Except Outcome Outcome
  | [] => .ok outcome
  | step :: rest => do (← outcome.step step).steps rest

end Outcome

def Script.run (script : Script) (disk : Disk) : Outcome :=
  match (Outcome.start disk).steps script.steps with
  | .ok outcome => { outcome with fault := script.fault }
  | .error outcome => outcome

end PageBuilder
