import ActionRegistry.Files.Path

/-!
# File trees

A file tree holds directories and regular files, without links and permissions. A path is resolved
name by name from the top directory or the working directory; every name but the last must be that
of a directory.
-/

namespace ActionRegistry

inductive FileError where
  | notFound
  | busy
  | alreadyExists
  | notDirectory
  | isDirectory
  | nameTooLong
  | zeroInPath
  /-- The file holds octets that are no text. -/
  | notText
  deriving DecidableEq, Repr

namespace FileError

def message : FileError → String
  | notFound => "No such file or directory (os error 2)"
  | busy => "Device or resource busy (os error 16)"
  | alreadyExists => "File exists (os error 17)"
  | notDirectory => "Not a directory (os error 20)"
  | isDirectory => "Is a directory (os error 21)"
  | nameTooLong => "File name too long (os error 36)"
  | zeroInPath => "file name contained an unexpected NUL byte"
  | notText => "stream did not contain valid UTF-8"

end FileError

/-- A place in a tree, as the names from the top directory on. -/
abbrev Place := List String

inductive Entry where
  | directory
  | file (content : ByteArray)

instance : DecidableEq Entry
  | .directory, .directory => .isTrue rfl
  | .directory, .file _ => .isFalse nofun
  | .file _, .directory => .isFalse nofun
  | .file a, .file b =>
    if h : a.data = b.data then .isTrue (congrArg Entry.file (ByteArray.ext h))
    else .isFalse fun hab => h (congrArg ByteArray.data (Entry.file.inj hab))

/-- A file tree, as what is in its places. The top directory is always there. -/
structure FileTree where
  entries : List (Place × Entry)

namespace FileTree

def empty : FileTree := ⟨[]⟩

def get? (t : FileTree) (place : Place) : Option Entry :=
  if place.isEmpty then some .directory else t.entries.lookup place

def remove (t : FileTree) (place : Place) : FileTree :=
  ⟨t.entries.filter fun e => e.1 != place⟩

def put (t : FileTree) (place : Place) (entry : Entry) : FileTree :=
  ⟨(place, entry) :: (t.remove place).entries⟩

def putParents (t : FileTree) (place : Place) : FileTree :=
  ((List.range place.length).map place.take).foldl
    (fun t p => if (t.get? p).isSome then t else t.put p .directory) t

/-- The tree of some entries, with the directories that lead to them. -/
def ofEntries (entries : List (Place × Entry)) : FileTree :=
  entries.foldl (fun t e => (t.putParents e.1).put e.1 e.2) empty

/-- The greatest number of octets in a name. -/
def longestName : Nat := 255

/-- The greatest number of octets in a path. -/
def longestPath : Nat := 4095

/-- The place that names lead to from a directory. What is in the place itself is not looked at. -/
def walk (t : FileTree) : Place → List String → Except FileError Place
  | place, [] => .ok place
  | place, name :: rest =>
    match t.get? place with
    | none => .error .notFound
    | some (.file _) => .error .notDirectory
    | some .directory =>
      if name = ".." then walk t place.dropLast rest
      else if longestName < name.utf8ByteSize then .error .nameTooLong
      else walk t (place ++ [name]) rest

end FileTree

/-- A file tree as seen from a working directory. -/
structure Files where
  tree : FileTree
  /-- Where paths start that are not absolute. -/
  workingDirectory : Place

namespace Files

def origin (fs : Files) (p : Path) : Place := if p.isAbsolute then [] else fs.workingDirectory

def checkPath (p : Path) : Except FileError Unit :=
  if p.text.toList.contains '\x00' then .error .zeroInPath
  else if p.text.isEmpty then .error .notFound
  else if FileTree.longestPath < p.text.utf8ByteSize then .error .nameTooLong
  else .ok ()

def entry (fs : Files) (p : Path) : Except FileError Entry := do
  checkPath p
  let place ← fs.tree.walk (fs.origin p) p.names
  match fs.tree.get? place with
  | none => .error .notFound
  | some (.file content) =>
    if p.demandsDirectory then .error .notDirectory else .ok (.file content)
  | some .directory => .ok .directory

def has (fs : Files) (p : Path) : Bool := (fs.entry p).toBool

def hasDirectory (fs : Files) (p : Path) : Bool :=
  match fs.entry p with
  | .ok .directory => true
  | _ => false

def readText (fs : Files) (p : Path) : Except FileError String := do
  match ← fs.entry p with
  | .directory => .error .isDirectory
  | .file content =>
    match String.fromUTF8? content with
    | some text => .ok text
    | none => .error .notText

end Files

end ActionRegistry
