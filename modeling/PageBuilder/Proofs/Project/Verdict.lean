import PageBuilder.Project.Command
import PageBuilder.Proofs.Document.Codec
import PageBuilder.Proofs.Project.Compile

/-!
The verdict of a command: what it fails with where the disk takes all that it writes. Checking a
project and compiling all of its pages come to one verdict, as neither looks at what the other does
not: the same configuration and document are read, and a page fails however it is to be written.
-/

namespace PageBuilder

def Script.Completes (script : Script) (disk : Disk) : Prop :=
  ∃ ended, (Outcome.start disk).steps script.steps = .ok ended

namespace Script

variable {disk : Disk}

theorem Completes.fault_of_run {script : Script} (completes : script.Completes disk) :
    (script.run disk).fault = script.fault := by
  obtain ⟨ended, ran⟩ := completes
  rw [run, ran]

theorem completes_of_prints {script : Script}
    (prints : ∀ effect ∈ script.steps, effect.prints = true) : script.Completes disk := by
  have each {outcome : Outcome} {effects : List Effect}
      (prints : ∀ effect ∈ effects, effect.prints = true) :
      ∃ ended, outcome.steps effects = .ok ended := by
    induction effects generalizing outcome with
    | nil => exact ⟨outcome, rfl⟩
    | cons effect rest ih =>
        have first := prints effect List.mem_cons_self
        have later := fun other member => prints other (List.mem_cons_of_mem _ member)
        cases effect with
        | print line | warn line => exact ih later
        | makeDirectories path | write path text => cases first
  exact each prints

end Script

namespace PageOutput

theorem compiled_eq_false_iff {output : PageOutput} :
    output.compiled = false ↔ ∃ fault, output.result = .error fault := by
  rw [compiled]
  cases output.result with
  | ok page => simp
  | error fault => simp

end PageOutput

namespace Document

variable {document : Document}

theorem valid_of_text {text : String} (read : ofText text = .ok document) : document.Valid := by
  unfold ofText ofParts at read
  split at read
  · cases read
  · split at read
    · rename_i accepted
      cases read
      exact valid_of_nodes accepted
    · cases read

theorem failure_count_congr (valid : document.Valid) (catalog : Catalog)
    (options other : CompileOptions) :
    failureCount (document.compileAll catalog options) =
      failureCount (document.compileAll catalog other) := by
  rw [failureCount, failureCount, compileAll, compileAll, compilePages, compilePages,
    List.countP_map, List.countP_map]
  apply List.countP_congr
  intro node _
  rw [Function.comp_apply, Function.comp_apply, Bool.not_eq_true', Bool.not_eq_true',
    PageOutput.compiled_eq_false_iff, PageOutput.compiled_eq_false_iff]
  exact exists_congr fun fault => compile_page_error_congr valid

end Document

/-- How a check tells what compiling fails with. Failed pages are counted by both, but each has
words of its own for them. -/
def ProjectFault.inCheck : ProjectFault → ProjectFault
  | .pagesNotCompiled count => .pagesWithErrors count
  | fault => fault

namespace Command

def compileAll (toOutput editor : Bool) (outDir : Option String) : Command :=
  .compile ⟨none, toOutput, editor, outDir⟩

variable {toOutput editor : Bool} {outDir : Option String}

theorem compile_fault {project : String} {config : Config} {document : Document} :
    (CompileRequest.pagesScript ⟨none, toOutput, editor, outDir⟩ project config document).fault =
      CompileRequest.verdict (document.compileAll config.catalog (config.options editor)) := by
  rw [CompileRequest.pagesScript, CompileRequest.outputs]
  dsimp only [Script.after]
  rw [CompileRequest.report]
  cases outputs : document.compileAll config.catalog (config.options editor) with
  | nil => rfl
  | cons output rest => cases toOutput <;> rfl

theorem verdicts_agree {document : Document} (valid : document.Valid) (config : Config)
    (editor : Bool) :
    CheckRequest.verdict ⟨false⟩ (document.compileAll config.catalog (config.options false)) =
      (CompileRequest.verdict (document.compileAll config.catalog (config.options editor))).map
        ProjectFault.inCheck := by
  rw [CheckRequest.verdict, CompileRequest.verdict,
    document.failure_count_congr valid config.catalog (config.options false)
      (config.options editor)]
  by_cases allCompiled :
      failureCount (document.compileAll config.catalog (config.options editor)) = 0
  · simp [allCompiled]
  · simp [allCompiled, ProjectFault.inCheck]

theorem valid_of_loaded {path : String} {found : Found} {document : Document}
    (loaded : loadDocument path found = .ok document) : document.Valid := by
  cases found with
  | nothing | unreadable fault => cases loaded
  | text content =>
      rw [loadDocument] at loaded
      split at loaded
      · rename_i read
        cases loaded
        exact Document.valid_of_text read
      · cases loaded
      · cases loaded

theorem load_fault_in_check {path : String} {found : Found} {script : Script}
    (failed : loadDocument path found = .error script) :
    script.fault.map ProjectFault.inCheck = script.fault := by
  cases found with
  | nothing | unreadable fault =>
      cases failed
      rfl
  | text content =>
      rw [loadDocument] at failed
      split at failed
      · cases failed
      · cases failed
        rfl
      · cases failed
        rfl

theorem config_fault_in_check {project : String} {found : Found} {fault : ProjectFault}
    (failed : Config.load project found = .error fault) : fault.inCheck = fault := by
  cases found with
  | nothing => cases failed
  | unreadable cause =>
      cases failed
      rfl
  | text content =>
      rw [Config.load] at failed
      split at failed
      · cases failed
      · cases failed
        rfl

/-- Whatever is found in a project, both commands are to end in the same way. -/
theorem faults_agree (project : String) (find : String → Found) :
    ((check ⟨false⟩).scriptAt project find).fault =
      ((compileAll toOutput editor outDir).scriptAt project find).fault.map
        ProjectFault.inCheck := by
  rw [scriptAt, scriptAt]
  dsimp only [compileAll, script, CheckRequest.script, CompileRequest.script, withConfig,
    documentPath]
  cases loaded : Config.load project (find (configPath project)) with
  | error fault => exact congrArg some (config_fault_in_check loaded).symm
  | ok config =>
      dsimp only [withDocument]
      cases read : loadDocument (Path.join project config.documentPath)
          (find (Path.join project config.documentPath)) with
      | error script => exact (load_fault_in_check read).symm
      | ok document =>
          dsimp only
          rw [compile_fault]
          exact verdicts_agree (valid_of_loaded read) config editor

theorem page_steps_print {output : PageOutput} {effect : Effect}
    (member : effect ∈ CheckRequest.pageSteps output) : effect.prints = true := by
  unfold CheckRequest.pageSteps at member
  split at member
  · rcases List.mem_cons.1 member with rfl | warning
    · rfl
    · obtain ⟨diagnostic, _, rfl⟩ := List.mem_map.1 warning
      rfl
  · rw [List.mem_singleton.1 member]
    rfl

theorem report_prints (request : CheckRequest) (outputs : List PageOutput) {effect : Effect}
    (member : effect ∈ (request.report outputs).steps) : effect.prints = true := by
  rcases List.mem_append.1 member with page | summary
  · obtain ⟨output, _, inside⟩ := List.mem_flatMap.1 page
    exact page_steps_print inside
  · rcases List.mem_cons.1 summary with rfl | last
    · rfl
    · rw [List.mem_singleton.1 last]
      rfl

theorem load_fault_prints {path : String} {found : Found} {script : Script}
    (failed : loadDocument path found = .error script) {effect : Effect}
    (member : effect ∈ script.steps) : effect.prints = true := by
  cases found with
  | nothing | unreadable fault =>
      cases failed
      cases member
  | text content =>
      rw [loadDocument] at failed
      split at failed
      · cases failed
      · cases failed
        cases member
      · cases failed
        obtain ⟨violation, _, rfl⟩ := List.mem_map.1 member
        rfl

theorem check_prints (request : CheckRequest) (project : String) (find : String → Found)
    {effect : Effect} (member : effect ∈ ((check request).scriptAt project find).steps) :
    effect.prints = true := by
  dsimp only [scriptAt, script, CheckRequest.script, withConfig] at member
  split at member
  · rcases List.mem_append.1 member with opening | rest
    · rw [List.mem_singleton.1 opening]
      rfl
    · rw [withDocument] at rest
      split at rest
      · exact report_prints request _ rest
      · rename_i failed
        exact load_fault_prints failed rest
  · cases member

/-- Without a word on warnings a check succeeds exactly where compiling all pages does, and fails
exactly where that fails and with the same fault, be it of the configuration, of the document or of
that many pages. It does not matter what is found in the project, whether markers are added, and
where the pages go, as long as the disk takes what is written. -/
theorem check_agrees_with_compile (project : String) (find : String → Found) (disk : Disk)
    (toOutput editor : Bool) (outDir : Option String)
    (written : ((compileAll toOutput editor outDir).scriptAt project find).Completes disk) :
    let checked := ((check ⟨false⟩).scriptAt project find).run disk
    let compiled := ((compileAll toOutput editor outDir).scriptAt project find).run disk
    (checked.fault = none ↔ compiled.fault = none) ∧
      checked.fault = compiled.fault.map ProjectFault.inCheck := by
  intro checked compiled
  have silent : ((check ⟨false⟩).scriptAt project find).Completes disk :=
    Script.completes_of_prints fun _ member => check_prints ⟨false⟩ project find member
  have same : checked.fault = compiled.fault.map ProjectFault.inCheck := by
    rw [silent.fault_of_run, written.fault_of_run]
    exact faults_agree project find
  refine ⟨?_, same⟩
  rw [same, Option.map_eq_none_iff]

open CompileRequest (similarPages hyphenPage underscorePage similar_pages_compiled)

def bareProject (document : Document) (path : String) : Found :=
  if path = "/w/app.json" then .text document.text else .nothing

theorem script_of_bare_project {document : Document} (valid : document.Valid)
    (whole : document.tree.hasFloat = false) (shallow : document.tree.levels ≤ nestingLimit)
    (request : CompileRequest) :
    (Command.compile request).scriptAt "/w" (bareProject document) =
      request.pagesScript "/w" Config.usual document := by
  have config : bareProject document (configPath "/w") = .nothing := if_neg (by decide +kernel)
  have place : Path.join "/w" Config.usual.documentPath = "/w/app.json" := by decide +kernel
  have text : bareProject document (Path.join "/w" Config.usual.documentPath) =
      .text document.text := if_pos place
  have load : Config.load "/w" .nothing = .ok Config.usual := rfl
  dsimp only [scriptAt, script, CompileRequest.script, withConfig, documentPath]
  rw [config, load]
  dsimp only [withDocument]
  rw [text, loadDocument, Document.of_text_of_document valid whole shallow]

theorem check_agrees_with_compile_sample :
    let script := (compileAll false false none).scriptAt "/w" (bareProject similarPages)
    script.Completes ⟨.empty⟩ ∧ (script.run ⟨.empty⟩).fault = none ∧
      (((check ⟨false⟩).scriptAt "/w" (bareProject similarPages)).run ⟨.empty⟩).fault = none := by
  intro script
  have valid : similarPages.Valid := Document.valid_run (Document.valid_of_root "r") _
  have same : script =
      CompileRequest.pagesScript ⟨none, false, false, none⟩ "/w" Config.usual similarPages :=
    script_of_bare_project valid (by decide +kernel) (by decide +kernel) _
  have listed : CompileRequest.outputs ⟨none, false, false, none⟩ Config.usual similarPages =
      .ok [⟨"p", "home-page", .ok hyphenPage⟩,
        ⟨"q", "home_page", .ok underscorePage⟩] := by
    have catalog : Config.usual.catalog = Catalog.builtin := rfl
    have options : Config.usual.options false = .usual := rfl
    rw [← similar_pages_compiled, CompileRequest.outputs, catalog, options]
  have finished : (script.run ⟨.empty⟩).fault = none := by
    rw [same, CompileRequest.pagesScript, listed]
    decide +kernel
  have written : script.Completes ⟨.empty⟩ := by
    have undisturbed : ∀ fault, (script.run ⟨.empty⟩).fault ≠ some (.file fault) := by
      rw [finished]
      exact fun fault => (Option.some_ne_none _).symm
    obtain ⟨ended, ran, _⟩ := Script.run_steps undisturbed
    exact ⟨ended, ran⟩
  have agree := (check_agrees_with_compile "/w" (bareProject similarPages) ⟨.empty⟩ false false
    none written).1
  exact ⟨written, finished, agree.2 finished⟩

end Command

end PageBuilder
