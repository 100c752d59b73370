import PageBuilder.Project.Loading

/-!
Compiles a project: every page or only the one of a name, to files in a directory or to the output.
-/

namespace PageBuilder

structure CompileRequest where
  /-- The name of the only page to compile. -/
  page : Option String
  toOutput : Bool
  editor : Bool
  /-- Goes before the directory of the configuration. -/
  outDir : Option String

namespace CompileRequest

def outputs (request : CompileRequest) (config : Config) (document : Document) :
    Except ProjectFault (List PageOutput) :=
  let options := config.options request.editor
  match request.page with
  | none => .ok (document.compileAll config.catalog options)
  | some name =>
      match document.pageNamed? name with
      | some page => .ok (document.compilePages [page] config.catalog options)
      | none => .error (.pageMissing name)

def outPath (request : CompileRequest) (project : String) (config : Config) : String :=
  Path.join project (request.outDir.getD config.outDir)

def shownSteps (output : PageOutput) : List Effect :=
  match output.result with
  | .ok page =>
      .print page.source
        :: page.diagnostics.map fun diagnostic => .warn ("warning: " ++ diagnostic.text)
  | .error fault => [.warn (failureLine output fault)]

def writtenSteps (outPath : String) (output : PageOutput) : List Effect :=
  match output.result with
  | .ok page =>
      let path := Path.join outPath page.fileName
      [.makeDirectories outPath, .write path page.source,
          .print s!"  ✓ {output.name} → {path}"]
        ++ warningSteps page.diagnostics
  | .error fault => [.warn (failureLine output fault)]

def verdict (outputs : List PageOutput) : Option ProjectFault :=
  if failureCount outputs = 0 then none
  else some (.pagesNotCompiled (failureCount outputs))

def summary (outputs : List PageOutput) : String :=
  let failures := failureCount outputs
  let compiled := outputs.countP PageOutput.compiled
  if failures = 0 then s!"✅ Compiled {compiled} pages successfully"
  else s!"⚠️ Compiled {compiled} pages, {failures} errors"

def report (request : CompileRequest) (outPath : String) (outputs : List PageOutput) : Script :=
  if outputs.isEmpty then .done [.print "⚠️  The document has no pages"]
  else if request.toOutput then ⟨outputs.flatMap shownSteps, verdict outputs⟩
  else
    ⟨outputs.flatMap (writtenSteps outPath) ++ [.print "", .print (summary outputs)],
      verdict outputs⟩

/-- Nothing but the pages is printed where they go to the output. -/
def opening (request : CompileRequest) : List Effect :=
  if request.toOutput then [] else [.print "🔨 Compiling pages..."]

def pagesScript (request : CompileRequest) (project : String) (config : Config)
    (document : Document) : Script :=
  .after request.opening <|
    match request.outputs config document with
    | .error fault => .failed [] fault
    | .ok outputs => request.report (request.outPath project config) outputs

def script (request : CompileRequest) (project : String) (config document : Found) : Script :=
  withConfig project config fun config =>
    withDocument (Path.join project config.documentPath) document
      (request.pagesScript project config)

end CompileRequest

end PageBuilder
