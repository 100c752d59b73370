import PageBuilder.Project.Command.Compile
import PageBuilder.Proofs.Page.Compiler
import PageBuilder.Proofs.Project.Disk
import PageBuilder.Proofs.Project.Script

/-!
What compiling a project leaves on the disk. Its pages are written one after another into one
directory, so of the pages that have the name of a file in common the last one stays.
-/

namespace PageBuilder

open PageBuilder.Path (PlainName)

theorem file_name_plain {page : CompiledPage} (usable : Identifier.Usable page.component) :
    PlainName page.fileName := by
  have long (short : String) (less : short.length < 4) : page.fileName ≠ short := by
    intro same
    have size : ".jsx".length ≤ page.fileName.length := by
      rw [CompiledPage.fileName, String.length_append]
      exact Nat.le_add_left _ _
    rw [same] at size
    exact absurd less (Nat.not_lt.2 size)
  refine ⟨?_, ?_, long ".." (by decide)⟩
  · rw [CompiledPage.fileName, String.toList_append, List.mem_append, not_or]
    refine ⟨fun member => ?_, by decide⟩
    exact absurd (Identifier.is_part_of_valid usable.valid member) (by decide)
  · rw [Path.isHere, Bool.or_eq_false_iff, decide_eq_false_iff_not]
    refine ⟨?_, long "." (by decide)⟩
    rw [Bool.eq_false_iff]
    intro empty
    exact long "" (by decide) (String.isEmpty_iff.1 empty)

theorem component_usable {document : Document} {id : NodeId} {catalog : Catalog}
    {options : CompileOptions} {page : CompiledPage}
    (compiled : document.compilePage id catalog options = .ok page) :
    Identifier.Usable page.component := by
  obtain ⟨node, plan, _, planned, rfl⟩ := Document.compile_page_ok compiled
  obtain ⟨table, imports⟩ := PageCompiler.import_table_ok document node.id catalog options
  rw [Document.plan_eq imports] at planned
  obtain ⟨bindings, _, same⟩ := Outcome.bind_eq_ok.1 planned
  cases same
  exact table.scope.fresh_name_usable _

def PageOutput.page? (output : PageOutput) : Option CompiledPage := output.result.toOption

namespace CompileRequest

def writtenPages (outputs : List PageOutput) : List CompiledPage :=
  outputs.filterMap PageOutput.page?

/-- Of the pages written into a directory, the newest first, the first of each name is there. -/
structure Shelved (outPath : String) (written : List CompiledPage) (disk : Disk) : Prop where
  plain : ∀ page ∈ written, PlainName page.fileName
  newest : ∀ {file page}, written.find? (fun page => page.fileName = file) = some page →
    disk.find (Path.join outPath file) = .text page.source

variable {outPath : String} {written : List CompiledPage} {disk : Disk}

theorem Shelved.make_directories (shelved : Shelved outPath written disk) (path : String) :
    Shelved outPath written (disk.makeDirectories path).disk :=
  ⟨shelved.plain, fun found => Disk.find_make_directories (shelved.newest found) path⟩

theorem Shelved.write {page : CompiledPage} (shelved : Shelved outPath written disk)
    (plain : PlainName page.fileName)
    (succeeded : (disk.write (Path.join outPath page.fileName) page.source).fault = none) :
    Shelved outPath (page :: written)
      (disk.write (Path.join outPath page.fileName) page.source).disk := by
  refine ⟨List.forall_mem_cons.2 ⟨plain, shelved.plain⟩, ?_⟩
  intro file other found
  rw [List.find?_cons] at found
  split at found
  · rename_i same
    rw [← Option.some.inj found, ← of_decide_eq_true same]
    exact Disk.find_write_self succeeded
  · rename_i different
    have named : other.fileName = file := by simpa using List.find?_some found
    have otherPlain := shelved.plain other (List.mem_of_find?_eq_some found)
    rw [named] at otherPlain
    exact Disk.find_write_other otherPlain plain
      (fun same => of_decide_eq_false different same.symm) (shelved.newest found)

theorem Shelved.step {outcome next : Outcome} {output : PageOutput}
    (shelved : Shelved outPath written outcome.disk)
    (plain : ∀ page, output.page? = some page → PlainName page.fileName)
    (ran : outcome.steps (writtenSteps outPath output) = .ok next) :
    Shelved outPath (output.page?.toList ++ written) next.disk := by
  obtain ⟨id, name, result⟩ := output
  cases result with
  | error fault =>
      rw [Outcome.disk_of_steps (fun effect member => ?_) ran]
      · exact shelved
      · rw [List.mem_singleton.1 member]
        rfl
  | ok page =>
      obtain ⟨made, directories, ran⟩ := Outcome.bind_eq_ok.1 ran
      obtain ⟨there, file, ran⟩ := Outcome.bind_eq_ok.1 ran
      obtain ⟨_, rfl⟩ := Outcome.attempted_ok.1 directories
      obtain ⟨succeeded, rfl⟩ := Outcome.attempted_ok.1 file
      rw [Outcome.disk_of_steps (fun effect member => ?_) ran]
      · exact (shelved.make_directories outPath).write (plain page rfl) succeeded
      · rcases List.mem_cons.1 member with rfl | warning
        · rfl
        · obtain ⟨diagnostic, _, rfl⟩ := List.mem_map.1 warning
          rfl

theorem Shelved.run {outcome next : Outcome} {outputs : List PageOutput}
    (shelved : Shelved outPath written outcome.disk)
    (plain : ∀ page ∈ writtenPages outputs, PlainName page.fileName)
    (ran : outcome.steps (outputs.flatMap (writtenSteps outPath)) = .ok next) :
    Shelved outPath ((writtenPages outputs).reverse ++ written) next.disk := by
  induction outputs generalizing outcome written with
  | nil => rwa [← Except.ok.inj ran]
  | cons output rest ih =>
      rw [List.flatMap_cons, Outcome.steps_append] at ran
      obtain ⟨middle, first, later⟩ := Outcome.bind_eq_ok.1 ran
      have pages : writtenPages (output :: rest) = output.page?.toList ++ writtenPages rest := by
        rw [writtenPages, List.filterMap_cons]
        cases output.page? <;> rfl
      rw [pages] at plain ⊢
      have stepped := shelved.step (fun page same => plain page
        (List.mem_append_left _ (Option.mem_toList.2 same))) first
      have rested :=
        ih stepped (fun page member => plain page (List.mem_append_right _ member)) later
      rwa [List.reverse_append, List.append_assoc, show output.page?.toList.reverse =
        output.page?.toList by cases output.page? <;> rfl]

theorem Shelved.empty (outPath : String) (disk : Disk) : Shelved outPath [] disk :=
  ⟨fun _ member => absurd member List.not_mem_nil, nofun⟩

variable {request : CompileRequest} {config : Config} {document : Document}
  {outputs : List PageOutput}

def fileOf (request : CompileRequest) (project : String) (config : Config) (page : CompiledPage) :
    String :=
  Path.join (request.outPath project config) page.fileName

theorem compiled_of_written (listed : request.outputs config document = .ok outputs)
    {page : CompiledPage} (member : page ∈ writtenPages outputs) :
    ∃ id, document.compilePage id config.catalog (config.options request.editor) = .ok page := by
  obtain ⟨output, inside, kept⟩ := List.mem_filterMap.1 member
  have result : output.result = .ok page := by
    rw [PageOutput.page?] at kept
    cases same : output.result with
    | error fault =>
        rw [same] at kept
        cases kept
    | ok other =>
        rw [same] at kept
        rw [Option.some.inj kept]
  have each {pages : List Node} (inside : output ∈ document.compilePages pages config.catalog
      (config.options request.editor)) :
      ∃ id, document.compilePage id config.catalog (config.options request.editor) = .ok page := by
    obtain ⟨node, _, rfl⟩ := List.mem_map.1 inside
    exact ⟨node.id, result⟩
  rw [CompileRequest.outputs] at listed
  split at listed
  · rw [← Except.ok.inj listed] at inside
    exact each inside
  · split at listed
    · rw [← Except.ok.inj listed] at inside
      exact each inside
    · cases listed

theorem pages_script_steps (toFiles : request.toOutput = false)
    (listed : request.outputs config document = .ok outputs) (project : String) :
    ∃ closing : List Effect, (∀ effect ∈ closing, effect.prints = true) ∧
      (request.pagesScript project config document).steps =
        .print "🔨 Compiling pages..." ::
          (outputs.flatMap (writtenSteps (request.outPath project config)) ++ closing) := by
  rw [pagesScript, opening, toFiles, listed, if_neg Bool.false_ne_true]
  dsimp only
  rw [report, toFiles, if_neg Bool.false_ne_true]
  cases outputs with
  | nil => exact ⟨[.print "⚠️  The document has no pages"], by simp [Effect.prints], rfl⟩
  | cons output rest =>
      exact ⟨[.print "", .print (summary (output :: rest))], by simp [Effect.prints], rfl⟩

theorem shelved_pages (toFiles : request.toOutput = false)
    (listed : request.outputs config document = .ok outputs) {project : String} {disk : Disk}
    {ended : Outcome} (ran : (request.pagesScript project config document).run disk = ended)
    (finished : ∀ fault, ended.fault ≠ some (.file fault)) :
    Shelved (request.outPath project config) (writtenPages outputs).reverse ended.disk := by
  subst ran
  obtain ⟨closing, quiet, steps⟩ := pages_script_steps toFiles listed project
  obtain ⟨last, ran, disks⟩ := Script.run_steps finished
  rw [steps] at ran
  obtain ⟨opened, first, ran⟩ := Outcome.bind_eq_ok.1 ran
  rw [Outcome.steps_append] at ran
  obtain ⟨middle, written, closed⟩ := Outcome.bind_eq_ok.1 ran
  have plain : ∀ page ∈ writtenPages outputs, PlainName page.fileName := by
    intro page member
    obtain ⟨id, compiled⟩ := compiled_of_written listed member
    exact file_name_plain (component_usable compiled)
  have shelved := (Shelved.empty (request.outPath project config) opened.disk).run plain written
  rw [disks, Outcome.disk_of_steps quiet closed, ← List.append_nil (List.reverse _)]
  exact shelved

theorem file_name_eq_iff {left right : CompiledPage} :
    left.fileName = right.fileName ↔ left.component = right.component := by
  rw [CompiledPage.fileName, CompiledPage.fileName, String.append_left_inj]

/-- After its pages were written, the last one of each component is on the disk. All of them are
there exactly if those of one component have the same text. -/
theorem last_pages_stay (toFiles : request.toOutput = false)
    (listed : request.outputs config document = .ok outputs) {project : String} {disk : Disk}
    {ended : Outcome} (ran : (request.pagesScript project config document).run disk = ended)
    (finished : ∀ fault, ended.fault ≠ some (.file fault)) :
    (∀ before page after, writtenPages outputs = before ++ page :: after →
        (∀ later ∈ after, later.component ≠ page.component) →
        ended.disk.find (request.fileOf project config page) = .text page.source) ∧
      ((∀ page ∈ writtenPages outputs,
          ended.disk.find (request.fileOf project config page) = .text page.source) ↔
        ∀ left ∈ writtenPages outputs, ∀ right ∈ writtenPages outputs,
          left.component = right.component → left.source = right.source) := by
  have shelved := shelved_pages toFiles listed ran finished
  refine ⟨?_, ?_, ?_⟩
  · intro before page after split last
    have newest : after.reverse.find? (fun other => other.fileName = page.fileName) = none := by
      rw [List.find?_eq_none]
      intro later member same
      exact last later (List.mem_reverse.1 member) (file_name_eq_iff.1 (of_decide_eq_true same))
    apply shelved.newest
    rw [split, List.reverse_append, List.reverse_cons, List.append_assoc, List.find?_append, newest,
      Option.none_or]
    exact List.find?_cons_of_pos (decide_eq_true rfl)
  · intro all left leftMember right rightMember same
    have file : request.fileOf project config left = request.fileOf project config right := by
      rw [fileOf, fileOf, file_name_eq_iff.2 same]
    have texts := all left leftMember
    rw [file, all right rightMember] at texts
    exact (Found.text.inj texts).symm
  · intro agree page member
    obtain ⟨newest, found⟩ := Option.isSome_iff_exists.1
      (List.find?_isSome.2 ⟨page, List.mem_reverse.2 member, decide_eq_true rfl⟩ :
        ((writtenPages outputs).reverse.find? fun other => other.fileName = page.fileName).isSome)
    have inside := List.mem_reverse.1 (List.mem_of_find?_eq_some found)
    have named : newest.fileName = page.fileName := by simpa using List.find?_some found
    rw [fileOf, shelved.newest found, agree newest inside page member (file_name_eq_iff.1 named)]

/-- Two pages with names that differ only in what stands between their words. -/
def similarPages : Document :=
  (Document.ofRoot "r").run
    [.addNode ⟨"p", "home-page", none, .empty, .page .empty⟩ "r" "pages" (some "V"),
      .addNode ⟨"q", "home_page", none, .empty, .page .empty⟩ "r" "pages" (some "k"),
      .setPageState "p" "count" .null]

def hyphenPage : CompiledPage :=
  ⟨"p", "home-page", "HomePage",
    "import * as React from \"react\";\n\nexport default function HomePage() \x7b\n" ++
      "  const [count, setCount] = React.useState(null);\n\n  return null;\n\x7d\n", []⟩

def underscorePage : CompiledPage :=
  ⟨"q", "home_page", "HomePage",
    "import * as React from \"react\";\n\nexport default function HomePage() \x7b\n" ++
      "  return null;\n\x7d\n", []⟩

theorem similar_pages_compiled : similarPages.compileAll Catalog.builtin .usual =
    [⟨"p", "home-page", .ok hyphenPage⟩, ⟨"q", "home_page", .ok underscorePage⟩] := by
  have sorted : similarPages.pages =
      similarPages.allNodes.filter (Document.standsIn similarPages.root Document.pagesSlot) :=
    List.mergeSort_of_pairwise (by decide +kernel)
  have pages : (similarPages.pages.map fun page => (page.id, page.name)) =
      [("p", "home-page"), ("q", "home_page")] := by
    rw [sorted]
    decide +kernel
  have outputs := congrArg (List.map fun page : NodeId × String =>
    (⟨page.1, page.2, similarPages.compilePage page.1 Catalog.builtin .usual⟩ : PageOutput)) pages
  rw [List.map_map, List.map_cons, List.map_cons, List.map_nil] at outputs
  have first : similarPages.compilePage "p" Catalog.builtin .usual = .ok hyphenPage := by
    decide +kernel
  have second : similarPages.compilePage "q" Catalog.builtin .usual = .ok underscorePage := by
    decide +kernel
  rw [first, second] at outputs
  exact outputs

/-- Both pages are compiled to a file of one name, which cannot hold both. -/
theorem similar_pages_share_file :
    similarPages.Valid ∧ ∃ first second : CompiledPage,
      similarPages.compileAll Catalog.builtin .usual =
        [⟨"p", "home-page", .ok first⟩, ⟨"q", "home_page", .ok second⟩] ∧
      first.fileName = second.fileName ∧
      ∀ disk : Disk, ∀ directory,
        ¬(disk.find (Path.join directory first.fileName) = .text first.source ∧
          disk.find (Path.join directory second.fileName) = .text second.source) := by
  refine ⟨Document.valid_run (Document.valid_of_root "r") _, hyphenPage, underscorePage,
    similar_pages_compiled, file_name_eq_iff.2 rfl, ?_⟩
  rintro disk directory ⟨there, thereToo⟩
  have same := Found.text.inj (there.symm.trans thereToo)
  exact absurd same (by decide +kernel)

theorem last_pages_stay_sample :
    let request : CompileRequest := ⟨none, false, false, none⟩
    let ended := (request.pagesScript "/w" Config.usual similarPages).run ⟨.empty⟩
    ended.fault = none ∧
      ended.disk.find "/w/generated/HomePage.jsx" = .text underscorePage.source := by
  intro request ended
  have listed : request.outputs Config.usual similarPages =
      .ok [⟨"p", "home-page", .ok hyphenPage⟩, ⟨"q", "home_page", .ok underscorePage⟩] := by
    have catalog : Config.usual.catalog = Catalog.builtin := rfl
    have options : Config.usual.options false = .usual := rfl
    rw [← similar_pages_compiled, CompileRequest.outputs, catalog, options]
  have finished : ended.fault = none := by
    simp only [ended, pagesScript, listed]
    decide +kernel
  have place : request.fileOf "/w" Config.usual underscorePage = "/w/generated/HomePage.jsx" := by
    decide +kernel
  have unbroken : ∀ fault, ended.fault ≠ some (.file fault) := by
    rw [finished]
    exact nofun
  have stays := (last_pages_stay rfl listed rfl unbroken).1 [hyphenPage] underscorePage [] rfl nofun
  rw [place] at stays
  exact ⟨finished, stays⟩

end CompileRequest

end PageBuilder
