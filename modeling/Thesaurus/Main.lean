import Thesaurus.Project.Interface

/-!
# The program

The command line on the files of the system.
-/

namespace Thesaurus

/-- What an error of the system means. -/
def FileError.ofSystem (e : IO.Error) : FileError :=
  match e with
  | .noFileOrDirectory .. => .notFound
  | .alreadyExists .. => .alreadyExists
  | .inappropriateType _ code _ => if code = 21 then .isFolder else .notFolder
  | e => .other (toString e)

/-- An action on the files of the system. -/
def onDisk {α : Type} (act : IO α) : ExceptT FileError IO α :=
  ExceptT.mk do
    try return .ok (← act)
    catch e => return .error (FileError.ofSystem e)

instance : FileSystem IO where
  read path := onDisk (IO.FS.readFile path)
  write path text := onDisk (IO.FS.writeFile path text)
  isPresent path := do
    try
      let _ ← IO.FS.realPath path
      return true
    catch _ => return false
  makeFolders path := onDisk (IO.FS.createDirAll path)

end Thesaurus

open Thesaurus in
/-- Runs the program: the code is 0 if a command was carried out, 1 if it failed,
and 2 if the command line breaks the rules. -/
def main (words : List String) : IO UInt32 := do
  match Invocation.ofWords words with
  | .shown _ text =>
    IO.print text
    return 0
  | .refused path =>
    IO.eprintln ("error: these words do not fit " ++ " ".intercalate path)
    return 2
  | .run root command =>
    match ← (command.run root : CommandM IO String).run with
    | .ok text =>
      IO.print text
      return 0
    | .error error =>
      IO.eprintln ("error: " ++ error.message)
      return 1
