import PageBuilder.Project.Loading

/-!
Checks a project: compiles every page and tells what is wrong, but writes nothing.
-/

namespace PageBuilder

structure CheckRequest where
  denyWarnings : Bool

namespace CheckRequest

def pageSteps (output : PageOutput) : List Effect :=
  match output.result with
  | .ok page =>
      let mark := if page.diagnostics.isEmpty then "✓" else "⚠"
      .print s!"  {mark} {output.name}" :: warningSteps page.diagnostics
  | .error fault => [.print (failureLine output fault)]

def summary (outputs : List PageOutput) : String :=
  let failures := failureCount outputs
  let warnings := warningCount outputs
  s!"   {outputs.length} pages, {failures} errors, {warnings} warnings"

def verdict (request : CheckRequest) (outputs : List PageOutput) : Option ProjectFault :=
  if failureCount outputs ≠ 0 then some (.pagesWithErrors (failureCount outputs))
  else if request.denyWarnings && warningCount outputs ≠ 0 then
    some (.warningsDenied (warningCount outputs))
  else none

def report (request : CheckRequest) (outputs : List PageOutput) : Script :=
  ⟨outputs.flatMap pageSteps ++ [.print "", .print (summary outputs)], request.verdict outputs⟩

def script (request : CheckRequest) (project : String) (config document : Found) : Script :=
  withConfig project config fun config =>
    let path := Path.join project config.documentPath
    .after [.print s!"🔍 Checking {path}"]
      (withDocument path document fun document =>
        request.report (document.compileAll config.catalog (config.options false)))

end CheckRequest

end PageBuilder
