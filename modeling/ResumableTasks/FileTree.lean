import ResumableTasks.Text.Split
/-!
Files and directories, and what reading the file at a path gives. A path is walked name by name, so
the first name that cannot be followed decides, and names after it do not count. Lengths are in
bytes.
-/
namespace ResumableTasks

inductive ReadFailure where
  | missing | notDirectory | isDirectory | nameTooLong | zeroInPath
  deriving DecidableEq, Repr

def ReadFailure.message : ReadFailure → String
  | .missing => "No such file or directory (os error 2)"
  | .notDirectory => "Not a directory (os error 20)"
  | .isDirectory => "Is a directory (os error 21)"
  | .nameTooLong => "File name too long (os error 36)"
  | .zeroInPath => "file name contained an unexpected NUL byte"

inductive FileTree where
  | file (text : String)
  | directory (entries : List (String × FileTree))

namespace FileTree

def nameLimit : Nat := 255

def pathLimit : Nat := 4095

/-- Follows the names of a path; `above` holds the directories that lead here, the nearest one
first. The root is its own parent. -/
def walk (above : List FileTree) : FileTree → List String → Except ReadFailure FileTree
  | here, [] => .ok here
  | .file _, _ :: _ => .error .notDirectory
  | .directory entries, name :: rest =>
    if name = "." then walk above (.directory entries) rest
    else if name = ".." then
      match above with
      | [] => walk [] (.directory entries) rest
      | parent :: above => walk above parent rest
    else if nameLimit < name.utf8ByteSize then .error .nameTooLong
    else match entries.lookup name with
      | some next => walk (.directory entries :: above) next rest
      | none => .error .missing

end FileTree

structure FileSystem where
  root : FileTree
  -- The names that lead from the root to the working directory.
  working : List String := []

namespace FileSystem

def names (path : List Char) : List String :=
  let parts := (Text.splitAll '/' path).map String.ofList
  -- A slash at the end asks for a directory, as a last name `.` does.
  parts.filter (· ≠ "") ++ if parts.getLast? = some "" then ["."] else []

def read (files : FileSystem) (path : String) : Except ReadFailure String :=
  let chars := path.toList
  if '\x00' ∈ chars then .error .zeroInPath
  else if chars = [] then .error .missing
  else if FileTree.pathLimit < path.utf8ByteSize then .error .nameTooLong
  else
    let start := if chars.head? = some '/' then [] else files.working
    match FileTree.walk [] files.root (start ++ names chars) with
    | .ok (.file text) => .ok text
    | .ok (.directory _) => .error .isDirectory
    | .error failure => .error failure

end FileSystem

end ResumableTasks
