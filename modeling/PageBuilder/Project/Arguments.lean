import PageBuilder.Project.Command

/-!
Commands as they are written on a command line: the name of the command, then its options. An
option that takes a value has it as the next argument.
-/

namespace PageBuilder.Command

def plainInit : InitRequest := ⟨Config.usualDocument, Config.usualOutDir, false⟩

def readInit (request : InitRequest) : List String → Option InitRequest
  | [] => some request
  | "--document" :: value :: rest | "-d" :: value :: rest =>
      readInit { request with document := value } rest
  | "--out-dir" :: value :: rest | "-o" :: value :: rest =>
      readInit { request with outDir := value } rest
  | "--force" :: rest | "-f" :: rest => readInit { request with force := true } rest
  | _ => none

def readCompile (request : CompileRequest) : List String → Option CompileRequest
  | [] => some request
  | "--page" :: value :: rest | "-p" :: value :: rest =>
      readCompile { request with page := some value } rest
  | "--out-dir" :: value :: rest | "-o" :: value :: rest =>
      readCompile { request with outDir := some value } rest
  | "--stdout" :: rest => readCompile { request with toOutput := true } rest
  | "--editor" :: rest => readCompile { request with editor := true } rest
  | _ => none

def readCheck (request : CheckRequest) : List String → Option CheckRequest
  | [] => some request
  | "--deny-warnings" :: rest => readCheck { request with denyWarnings := true } rest
  | _ => none

def read : List String → Option Command
  | "init" :: options => (readInit plainInit options).map init
  | "compile" :: options => (readCompile ⟨none, false, false, none⟩ options).map compile
  | "check" :: options => (readCheck ⟨false⟩ options).map check
  | _ => none

def usage : String :=
  "Usage: pagecraft <COMMAND>\n\nCommands:\n"
    ++ "  init     [--document <DOCUMENT>] [--out-dir <OUT_DIR>] [--force]\n"
    ++ "  compile  [--page <PAGE>] [--stdout] [--editor] [--out-dir <OUT_DIR>]\n"
    ++ "  check    [--deny-warnings]\n"

end PageBuilder.Command
