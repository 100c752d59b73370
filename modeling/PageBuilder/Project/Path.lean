/-!
Texts of paths: names with slashes between them.
-/

namespace PageBuilder

namespace Path

def isAbsolute (path : String) : Bool := path.toList.head? = some '/'

/-- A path as seen from a base. An absolute path stays as it is. -/
def join (base path : String) : String :=
  if isAbsolute path || base.isEmpty then path
  else if base.toList.getLast? = some '/' then base ++ path
  else base ++ "/" ++ path

/-- `name` holds the current name, newest character first. -/
def splitNames (name : List Char) : List Char → List String
  | [] => [String.ofList name.reverse]
  | char :: rest =>
      if char = '/' then String.ofList name.reverse :: splitNames [] rest
      else splitNames (char :: name) rest

/-- The names of a path, also the empty ones beside slashes. -/
def names (path : String) : List String := splitNames [] path.toList

def isHere (name : String) : Bool := name.isEmpty || name = "."

/-- Without the empty names at the end, which are of slashes. -/
def withoutSlashes (names : List String) : List String :=
  (names.reverse.dropWhile String.isEmpty).reverse

/-- The names of the directory that a path lies in. -/
def namesAbove (names : List String) : List String :=
  (((names.reverse.dropWhile isHere).drop 1).dropWhile isHere).reverse

/-- The last name that leads elsewhere, and the names after it. -/
def lastNames (names : List String) : List String :=
  let after := (names.reverse.takeWhile isHere).reverse
  match names.reverse.dropWhile isHere with
  | [] => after
  | name :: _ => name :: after

def parent (path : String) : String :=
  let above := "/".intercalate (namesAbove (names path))
  if above.isEmpty && isAbsolute path then "/" else above

end Path

end PageBuilder
