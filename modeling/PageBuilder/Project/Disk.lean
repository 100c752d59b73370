import PageBuilder.Project.Path
import PageBuilder.SortedMap

/-!
Files and directories by their place, which is the names that lead there from the topmost
directory. A path is followed name by name, and all names but the last have to be of directories.
A path that is too long, or that holds a NUL, is refused before anything is looked at.
-/

namespace PageBuilder

inductive DiskEntry where
  | directory
  | file (text : String)

structure Disk where
  /-- By place, without the topmost directory. -/
  entries : SortedMap DiskEntry

inductive FileFault where
  | notFound
  | alreadyThere
  | notDirectory
  | isDirectory
  | nameTooLong
  | badName
  | other (message : String)
  deriving DecidableEq

def FileFault.message : FileFault → String
  | .notFound => "No such file or directory (os error 2)"
  | .alreadyThere => "File exists (os error 17)"
  | .notDirectory => "Not a directory (os error 20)"
  | .isDirectory => "Is a directory (os error 21)"
  | .nameTooLong => "File name too long (os error 36)"
  | .badName => "file name contained an unexpected NUL byte"
  | .other message => message

inductive Found where
  | nothing
  | text (content : String)
  | unreadable (fault : FileFault)

def Found.isThere : Found → Bool
  | .nothing => false
  | _ => true

namespace Disk

/-- In bytes. -/
def longestName : Nat := 255

/-- In bytes. -/
def longestPath : Nat := 4095

def placeText (place : List String) : String := "/".intercalate place

def entryOf? (disk : Disk) : List String → Option DiskEntry
  | [] => some .directory
  | place => disk.entries.get? (placeText place)

def put (disk : Disk) (place : List String) (entry : DiskEntry) : Disk :=
  ⟨disk.entries.insert (placeText place) entry⟩

/-- Whether a path may be followed at all. -/
def accept (path : String) : Except FileFault Unit :=
  if path.toList.any fun char => char.toNat = 0 then .error .badName
  else if longestPath < path.utf8ByteSize then .error .nameTooLong
  else .ok ()

def below (place : List String) (name : String) : Except FileFault (List String) :=
  if Path.isHere name then .ok place
  else if name = ".." then .ok place.dropLast
  else if longestName < name.utf8ByteSize then .error .nameTooLong
  else .ok (place ++ [name])

def mustBeDirectory : Option DiskEntry → Except FileFault Unit
  | some .directory => .ok ()
  | some (.file _) => .error .notDirectory
  | none => .error .notFound

/-- The place that names lead to from one place; only the last may be of anything but a
directory. -/
def follow (disk : Disk) (place : List String) : List String → Except FileFault (List String)
  | [] => .ok place
  | [name] => below place name
  | name :: rest => do
      let place ← below place name
      mustBeDirectory (disk.entryOf? place)
      disk.follow place rest

def look (disk : Disk) (path : String) : Except FileFault DiskEntry := do
  accept path
  match disk.entryOf? (← disk.follow [] (Path.names path)) with
  | some entry => .ok entry
  | none => .error .notFound

def find (disk : Disk) (path : String) : Found :=
  match disk.look path with
  | .ok (.file text) => .text text
  | .ok .directory => .unreadable .isDirectory
  | .error _ => .nothing

end Disk

/-- The disk after a step on it, and the fault that ended the step early, if one did. -/
structure Attempt where
  disk : Disk
  fault : Option FileFault

namespace Disk

/-- Where a path has a file written. A path that ends in a slash is one of a directory, whatever its
last name is. -/
def fileAt (disk : Disk) (path : String) : Except FileFault (List String) := do
  accept path
  let names := Path.names path
  if names.getLast?.any String.isEmpty then
    let _ ← disk.follow [] ((Path.withoutSlashes names).dropLast ++ ["."])
    .error .isDirectory
  else
    let place ← disk.follow [] names
    match disk.entryOf? place with
    | some .directory => .error .isDirectory
    | _ => .ok place

def write (disk : Disk) (path text : String) : Attempt :=
  match disk.fileAt path with
  | .ok place => ⟨disk.put place (.file text), none⟩
  | .error fault => ⟨disk, some fault⟩

def ensureDirectory (disk : Disk) (place names : List String) : Attempt :=
  match disk.follow place (Path.withoutSlashes names) with
  | .error fault => ⟨disk, some fault⟩
  | .ok place =>
      match disk.entryOf? place with
      | some .directory => ⟨disk, none⟩
      | some (.file _) => ⟨disk, some .alreadyThere⟩
      | none => ⟨disk.put place .directory, none⟩

/-- Goes along `above`, making the directories that are not there, and then ensures the last. A
file on the way is no directory to go through; once a directory was made, it is one that cannot be
made. -/
def ensureAlong (disk : Disk) (place : List String) (made : Bool) (last : List String) :
    List String → Attempt
  | [] => disk.ensureDirectory place last
  | name :: rest =>
      match below place name with
      | .error fault => ⟨disk, some fault⟩
      | .ok place =>
          match disk.entryOf? place with
          | some .directory => disk.ensureAlong place made last rest
          | some (.file _) => ⟨disk, some (if made then .alreadyThere else .notDirectory)⟩
          | none => (disk.put place .directory).ensureAlong place true last rest

/-- Directories that were made stay, also where a later one fails. -/
def makeDirectories (disk : Disk) (path : String) : Attempt :=
  match accept path with
  | .error fault => ⟨disk, some fault⟩
  | .ok () =>
      let names := Path.names path
      disk.ensureAlong [] false (Path.lastNames names) (Path.namesAbove names)

end Disk

end PageBuilder
