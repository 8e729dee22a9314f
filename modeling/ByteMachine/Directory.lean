/-!
# Files in a directory

A directory of plain files, and what reading a path in it gives. Nothing is known about what lies
outside of it, so no file is found there.

* `ReadError`, `ReadError.message`: why a file could not be read.
* **`Directory.read`**: the contents of the file that a path leads to.
-/

namespace ByteMachine

/-- Why a file could not be read as text. -/
inductive ReadError
  /-- The operating system refused, for this reason and with this number. -/
  | system (reason : String) (code : Nat)
  /-- The contents are not text. -/
  | invalidText
deriving DecidableEq

namespace ReadError

/-- There is no such file. -/
def notFound : ReadError := system "No such file or directory" 2

/-- A path leads through a file. -/
def notDirectory : ReadError := system "Not a directory" 20

/-- A path leads to a directory. -/
def isDirectory : ReadError := system "Is a directory" 21

/-- The text of the error. -/
def message : ReadError → String
  | system reason code => reason ++ " (os error " ++ Nat.repr code ++ ")"
  | invalidText => "stream did not contain valid UTF-8"

end ReadError

/-- Plain files with their names and contents. -/
structure Directory where
  files : List (String × ByteArray) := []

namespace Directory

/-- What a path has led to so far. -/
inductive Place
  /-- The directory itself. -/
  | inside
  /-- A directory above it, of which nothing is known. -/
  | above
  /-- A file with these contents. -/
  | file (contents : ByteArray)

/-- Follow one more part of a path. An empty part stands for the directory it is looked up in. -/
def follow (directory : Directory) (place : Place) (part : String) : Except ReadError Place :=
  match place with
  | .file _ => .error .notDirectory
  | .above => if part = "" ∨ part = "." ∨ part = ".." then .ok .above else .error .notFound
  | .inside =>
    if part = "" ∨ part = "." then .ok .inside
    else if part = ".." then .ok .above
    else match directory.files.lookup part with
      | some contents => .ok (.file contents)
      | none => .error .notFound

/-- **Read the file that a path leads to**, from the directory on. A path that starts with `/` leads
out of the directory at once, and the empty path leads nowhere. -/
def read (directory : Directory) (path : String) : Except ReadError ByteArray :=
  if path = "" then .error .notFound
  else
    let start : Place := if path.startsWith "/" then .above else .inside
    let parts := (path.toList.splitOn '/').map String.ofList
    match parts.foldlM directory.follow start with
    | .ok (.file contents) => .ok contents
    | .ok _ => .error .isDirectory
    | .error error => .error error

end Directory

end ByteMachine
