import PageBuilder.Project.Arguments

/-!
The command line.
-/

open PageBuilder

namespace CommandLine

def fileFault : IO.Error → FileFault
  | .noFileOrDirectory _ _ _ => .notFound
  | .alreadyExists _ _ _ => .alreadyThere
  | .inappropriateType _ 20 _ => .notDirectory
  | .inappropriateType _ 21 _ => .isDirectory
  | .invalidArgument _ 36 _ => .nameTooLong
  | fault => .other (toString fault)

def find (path : String) : IO Found := do
  try
    let content ← IO.FS.readFile path
    return .text content
  catch fault =>
    match fileFault fault with
    | .notFound => return .nothing
    | .notDirectory => return .nothing
    | .nameTooLong => return .nothing
    | cause => return .unreadable cause

def perform : Effect → IO Unit
  | .print line => IO.println line
  | .warn line => IO.eprintln line
  | .makeDirectories path => IO.FS.createDirAll path
  | .write path text => IO.FS.writeFile path text

def performAll (steps : List Effect) : IO (Option ProjectFault) := do
  try
    steps.forM perform
    return none
  catch fault => return some (.file (fileFault fault))

def run (command : Command) : IO UInt32 := do
  let project := (← IO.currentDir).toString
  let config ← find (Command.configPath project)
  let document ← find (command.documentPath project config)
  let script := command.script project config document
  match (← performAll script.steps).or script.fault with
  | none => return 0
  | some fault => do
      IO.eprintln s!"\nError: {fault.message}\n"
      return 1

end CommandLine

def main (arguments : List String) : IO UInt32 := do
  match Command.read arguments with
  | some command => CommandLine.run command
  | none => do
      IO.eprintln Command.usage
      return 2
