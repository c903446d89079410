import RemoteHost.Fault
import RemoteHost.Text.Pieces

/-!
# File trees

Files in directories, and what reading the file of a path comes to. A path is followed name by
name; the first name that does not lead on decides what is wrong.
-/

namespace RemoteHost.CommandLine

inductive FileTree where
  | file (content : List UInt8)
  | directory (entries : List (String × FileTree))

namespace FileTree

def longestName : Nat := 255

def longestPath : Nat := 4095

/-- Follows names from a place in a tree; the directories above it are given, the next one first.
Two points lead one directory up, as far as there is one. -/
def follow (above : List FileTree) (here : FileTree) : List String → Except IoFault FileTree
  | [] => .ok here
  | name :: rest =>
    match here with
    | .file _ => .error .notDirectory
    | .directory entries =>
      if name = "" ∨ name = "." then follow above here rest
      else if name = ".." then
        match above with
        | [] => follow [] here rest
        | up :: above => follow above up rest
      else if longestName < name.utf8ByteSize then .error .nameTooLong
      else
        match entries.lookup name with
        | none => .error .notFound
        | some next => follow (here :: above) next rest

/-- The names of a path. A path that starts with a slash starts at the root. -/
def names (start : List String) (path : String) : List String :=
  let names := (Text.pieces ['/'] path.toList).map String.ofList
  if names.head? = some "" then names else start ++ names

/-- Reads the file of a path in a tree. A path without a slash at its start is followed from the
directory `start`; the empty path leads nowhere. -/
def read (root : FileTree) (start : List String) (path : String) :
    Except IoFault (List Text.Glyph) :=
  if path = "" then .error .notFound
  else if longestPath < path.utf8ByteSize then .error .nameTooLong
  else
    match follow [] root (names start path) with
    | .error fault => .error fault
    | .ok (.directory _) => .error .isDirectory
    | .ok (.file content) => .ok (Text.decode content)

end FileTree

end RemoteHost.CommandLine
