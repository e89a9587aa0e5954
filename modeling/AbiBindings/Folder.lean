import AbiBindings.Fault

/-!
# Folders

What a run sees of a file system: files and directories under absolute paths,
given by the names on the way from the root, the working directory, and the
programs that are installed.  A file is a text or a program, and of a program
only the reply is known that it gives to any request.  Every proper beginning of
the path of a file or directory is a directory.  `Folder.resolve` follows a path
and is the only place that knows its faults.
-/

namespace AbiBindings

/-- What a program writes, and the status it exits with. -/
structure Reply where
  stdout : String := ""
  stderr : String := ""
  status : UInt8 := 0
deriving DecidableEq, Repr, Inhabited

/-- A file. -/
inductive FileNode where
  | text (content : String)
  | program (reply : Reply)
deriving DecidableEq, Repr, Inhabited

/-- Files and directories by the names of their paths, and installed programs by
their own names. -/
structure Folder where
  here : List String
  files : List (List String × FileNode) := []
  directories : List (List String) := []
  installed : List (String × Reply) := []
deriving DecidableEq, Repr, Inhabited

/-- What a path leads to. -/
inductive Target where
  | directory
  | file (names : List String) (node : FileNode)
  /-- no file, but one could be created -/
  | absent (names : List String)
deriving DecidableEq, Repr

/-- The longest name of a file, in bytes. -/
def maxNameBytes : Nat := 255

/-- The number of bytes that no path reaches. -/
def pathByteLimit : Nat := 4096

namespace Folder

/-- The file of that path. -/
def file? (f : Folder) (names : List String) : Option FileNode := f.files.lookup names

/-- Whether the path is a directory. -/
def isDirectory (f : Folder) (names : List String) : Bool :=
  (f.here :: f.directories).any names.isPrefixOf
    || f.files.any fun (path, _) => names.isPrefixOf path && path != names

/-- What the parts of a path lead to from a place that is there. -/
def walk (f : Folder) (place : List String) : List String → Except FileFault Target
  | [] =>
      match f.file? place with
      | some node => .ok (.file place node)
      | none => .ok .directory
  | part :: rest =>
      if (f.file? place).isSome then .error .notADirectory
      else if part = "" ∨ part = "." then f.walk place rest
      else if part = ".." then f.walk place.dropLast rest
      else
        let next := place ++ [part]
        if maxNameBytes < part.utf8ByteSize then .error .nameTooLong
        else if (f.file? next).isSome || f.isDirectory next then f.walk next rest
        else if rest.isEmpty then .ok (.absent next)
        else .error .notFound

/-- Where a path starts from: the root or the working directory. -/
def start (f : Folder) (path : String) : List String :=
  if path.toList.head? = some '/' then [] else f.here

/-- What a path leads to. -/
def resolve (f : Folder) (path : String) : Except FileFault Target :=
  if path.toList.contains '\x00' then .error .nulInName
  else if path.isEmpty then .error .notFound
  else if pathByteLimit ≤ path.utf8ByteSize then .error .nameTooLong
  else f.walk (f.start path) (path.splitOn "/")

/-- The text of the file that a path leads to; a program has none to be read. -/
def read (f : Folder) (path : String) : Except FileFault String := do
  match ← f.resolve path with
  | .directory => .error .isADirectory
  | .absent _ => .error .notFound
  | .file _ (.text content) => .ok content
  | .file _ (.program _) => .ok ""

/-- The folder with a file under those names. -/
def put (f : Folder) (names : List String) (node : FileNode) : Folder :=
  { f with files := (names, node) :: f.files.filter fun e => e.1 != names }

/-- The folder with a text under a path, whose directory has to be there. -/
def write (f : Folder) (path content : String) : Except FileFault Folder := do
  match ← f.resolve path with
  | .directory => .error .isADirectory
  | .absent names | .file names _ => .ok (f.put names (.text content))

/-- The reply of an installed program. -/
def runInstalled (f : Folder) (name : String) : Except FileFault Reply :=
  match f.installed.lookup name with
  | some reply => .ok reply
  | none =>
      if name = "." ∨ name = ".." then .error .permissionDenied
      else if maxNameBytes < name.utf8ByteSize then .error .nameTooLong
      else .error .notFound

/-- The reply of a program to arguments.  A name without a slash is that of an
installed program, any other the path of a file. -/
def run (f : Folder) (binary : String) (args : List String) : Except FileFault Reply :=
  if (binary :: args).any fun s => s.toList.contains '\x00' then .error .nulInCommand
  else if !binary.toList.contains '/' then f.runInstalled binary
  else do
    match ← f.resolve binary with
    | .file _ (.program reply) => .ok reply
    | .absent _ => .error .notFound
    | _ => .error .permissionDenied

/-- The names that a path leads through from those of a directory, whatever is
there. -/
def namesFrom (place : List String) : List String → List String
  | [] => place
  | part :: rest =>
      if part = "" ∨ part = "." then namesFrom place rest
      else if part = ".." then namesFrom place.dropLast rest
      else namesFrom (place ++ [part]) rest

/-- The folder with a file under a path, whatever else is there. -/
def place (f : Folder) (path : String) (node : FileNode) : Folder :=
  f.put (namesFrom (f.start path) (path.splitOn "/")) node

/-- The folder with a directory under a path, whatever else is there. -/
def placeDirectory (f : Folder) (path : String) : Folder :=
  { f with directories := namesFrom (f.start path) (path.splitOn "/") :: f.directories }

end Folder

end AbiBindings
