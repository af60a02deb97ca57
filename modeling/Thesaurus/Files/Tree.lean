import Thesaurus.Table
import Thesaurus.Text.Cut

/-!
# Files

What the library asks of a file system: four operations, each of which can fail.
Everything that reads and writes files is written against the class
`FileSystem`, so the same commands run on a real disk and on a tree of files in
memory.

Paths are texts with slashes between their parts. A path that begins with a slash
is absolute; any other is relative to the working folder. In a tree, a path leads to
a location: the location of the root is the empty text, and a location is followed by
a slash and a name for what lies inside.

## Main definitions

* `FileSystem`: the operations.
* `FileTree`: folders and files as one value, kept in a table of locations.
* `FileTree.locate`: the location that a path leads to.
-/

namespace Thesaurus

/-! ## File systems -/

/-- Why a file or a folder cannot be used. -/
inductive FileError
  | notFound
  | alreadyExists
  | notFolder
  | isFolder
  | nameTooLong
  /-- A path with the zero character, which no system admits. -/
  | zeroCharacter
  /-- The bytes of a file are no text. -/
  | notText
  | other (reason : String)
deriving DecidableEq, Repr, Inhabited

/-- The sentence for an error, with the number under which systems know it. -/
def FileError.message : FileError → String
  | .notFound => "No such file or directory (os error 2)"
  | .alreadyExists => "File exists (os error 17)"
  | .notFolder => "Not a directory (os error 20)"
  | .isFolder => "Is a directory (os error 21)"
  | .nameTooLong => "File name too long (os error 36)"
  | .zeroCharacter => "file name contained an unexpected NUL byte"
  | .notText => "stream did not contain valid UTF-8"
  | .other reason => reason

/-- A monad in which files can be read and written. -/
class FileSystem (m : Type → Type) where
  /-- The text of a file. -/
  read (path : String) : ExceptT FileError m String
  /-- Writes a file, over its former text if there is any. The folder has to be
  there. -/
  write (path text : String) : ExceptT FileError m Unit
  /-- Whether there is a file or a folder. -/
  isPresent (path : String) : m Bool
  /-- Makes a folder with all the folders above it, as far as they are not there. -/
  makeFolders (path : String) : ExceptT FileError m Unit

/-- Whether a path does not depend on the working folder. -/
def isAbsolutePath (path : String) : Bool := path.toList.head? == some '/'

/-- A path below a folder; an absolute path stays as it is. -/
def pathIn (folder path : String) : String :=
  if isAbsolutePath path || folder.isEmpty then path
  else if folder.toList.getLast? == some '/' then folder ++ path
  else folder ++ "/" ++ path

/-- The parts of a path between its slashes. -/
def pathParts (path : String) : List String :=
  ((Text.pieces '/' path.toList).map String.ofList).filter fun part => !part.isEmpty

/-! ## Files in memory -/

/-- What stands at a location. -/
inductive FileEntry
  | folder
  | file (text : String)
deriving DecidableEq, Repr, Inhabited

/-- A tree of folders and files. -/
structure FileTree where
  entries : Table FileEntry := .empty
  /-- The location of the working folder. -/
  working : String := ""
deriving Inhabited

namespace FileTree

/-- The longest name that a file may have, in bytes. -/
def maxNameLength : Nat := 255

/-- The longest path that is looked at, in bytes, whatever it leads to. -/
def maxPathLength : Nat := 4095

/-- What stands at a location. -/
def entry? (t : FileTree) (location : String) : Option FileEntry :=
  if location.isEmpty then some .folder else t.entries.get? location

/-- Puts an entry at a location. -/
def put (t : FileTree) (location : String) (entry : FileEntry) : FileTree :=
  { t with entries := t.entries.insert location entry }

/-- The location of the folder around a location. -/
def parentOf (location : String) : String :=
  .ofList ((location.toList.reverse.dropWhile (· ≠ '/')).drop 1).reverse

/-- The location that one part of a path leads to from a folder. -/
def follow (folder part : String) : Except FileError String :=
  if part = "." then .ok folder
  else if part = ".." then .ok (parentOf folder)
  else if maxNameLength < part.utf8ByteSize then .error .nameTooLong
  else .ok (folder ++ "/" ++ part)

/-- Goes into a folder. -/
def enter (t : FileTree) (folder part : String) : Except FileError String := do
  let location ← follow folder part
  match t.entry? location with
  | some .folder => return location
  | some (.file _) => throw .notFolder
  | none => throw .notFound

/-- The folder from which a path starts. -/
def startOf (t : FileTree) (path : String) : String :=
  if isAbsolutePath path then "" else t.working

/-- Refuses the texts that are no path for any tree. -/
def checkPath (path : String) : Except FileError Unit :=
  if path.toList.contains '\x00' then .error .zeroCharacter
  else if maxPathLength < path.utf8ByteSize then .error .nameTooLong
  else .ok ()

/-- The location of the last part of a path, in a folder that is there. -/
def locate (t : FileTree) (path : String) : Except FileError String := do
  checkPath path
  if path.isEmpty then throw .notFound
  let parts := pathParts path
  let folder ← parts.dropLast.foldlM t.enter (t.startOf path)
  match parts.getLast? with
  | some last => follow folder last
  | none => return folder

/-- Whether a path ends with a slash, so that it can name a folder only. -/
def namesFolder (path : String) : Bool := path.toList.getLast? == some '/'

/-- The entry that a path leads to. -/
def lookUp (t : FileTree) (path : String) : Except FileError FileEntry := do
  let location ← t.locate path
  match t.entry? location with
  | some (.file text) => if namesFolder path then throw .notFolder else return .file text
  | some .folder => return .folder
  | none => throw .notFound

/-- The text of a file. -/
def textAt (t : FileTree) (path : String) : Except FileError String := do
  match ← t.lookUp path with
  | .file text => return text
  | .folder => throw .isFolder

/-- The tree with a file written. -/
def withFile (t : FileTree) (path text : String) : Except FileError FileTree := do
  let location ← t.locate path
  if namesFolder path || t.entry? location == some .folder then throw .isFolder
  return t.put location (.file text)

/-- Makes the folders of a path from a folder on, and says what stopped it. -/
def makeParts (t : FileTree) (folder : String) : List String → Except FileError Unit × FileTree
  | [] => (.ok (), t)
  | part :: rest =>
    match follow folder part with
    | .error error => (.error error, t)
    | .ok location =>
      match t.entry? location with
      | some .folder => makeParts t location rest
      | some (.file _) => (.error (if rest.isEmpty then .alreadyExists else .notFolder), t)
      | none => makeParts (t.put location .folder) location rest

/-- Makes a folder and those above it. -/
def makeFolders (t : FileTree) (path : String) : Except FileError Unit × FileTree :=
  match checkPath path with
  | .error error => (.error error, t)
  | .ok () => t.makeParts (t.startOf path) (pathParts path)

/-- A tree with nothing but a working folder. -/
def ofWorking (path : String) : FileTree :=
  { (FileTree.makeFolders {} path).2 with working := path }

end FileTree

instance : FileSystem (StateM FileTree) where
  read path := ExceptT.mk fun t => (t.textAt path, t)
  write path text := ExceptT.mk fun t =>
    match t.withFile path text with
    | .ok t => (.ok (), t)
    | .error error => (.error error, t)
  isPresent path := fun t => ((t.lookUp path).isOk, t)
  makeFolders path := ExceptT.mk fun t => t.makeFolders path

end Thesaurus
