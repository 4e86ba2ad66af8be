import ActionRegistry.Files.Tree
import ActionRegistry.Text

/-!
# Reading and writing files whole

A file is written by way of a temporary file beside it, which then takes its place. So the file
holds either what it held before or all that was to be written. A write that fails may leave new
directories, and nothing else.
-/

namespace ActionRegistry.Files

/-- The trimmed text of a file, or none if nothing is at the path. -/
def readTrimmed (fs : Files) (p : Path) : Except FileError (Option String) :=
  if fs.has p then (fun text => some (Text.trim text)) <$> fs.readText p else .ok none

def withTree (fs : Files) (tree : FileTree) : Files := { fs with tree }

def directory (tree : FileTree) (place : Place) : Except FileError Place :=
  match tree.get? place with
  | none => .error .notFound
  | some (.file _) => .error .notDirectory
  | some .directory => .ok place

/-- The place of a path and the directory it is in; there is none if the path ends in a dot or two.
-/
def newPlace (fs : Files) (p : Path) : Except FileError (Option Place) := do
  checkPath p
  match p.lastName? with
  | none => .ok none
  | some last =>
    if last = "." ∨ last = ".." then
      let place ← fs.tree.walk (fs.origin p) p.names
      let _ ← directory fs.tree place
      .ok none
    else
      let place ← fs.tree.walk (fs.origin p) p.names.dropLast
      let place ← directory fs.tree place
      if FileTree.longestName < last.utf8ByteSize then .error .nameTooLong
      else .ok (some (place ++ [last]))

def makeDirectory (fs : Files) (p : Path) : Except FileError Files := do
  match ← fs.newPlace p with
  | none => .error .alreadyExists
  | some place =>
    if (fs.tree.get? place).isSome then .error .alreadyExists
    else .ok (fs.withTree (fs.tree.put place .directory))

/-- The outcome of an operation that may change the files even if it fails. -/
abbrev Outcome := Except FileError Unit × Files

/-- The files with a directory and, where they are missing, its parents; all are given, the longest
path first. -/
def makeDirectories (fs : Files) : List Path → Outcome
  | [] => (.error .notFound, fs)
  | p :: parents =>
    if p.text.isEmpty then (.ok (), fs)
    else
      let orPresent (fs : Files) (e : FileError) : Outcome :=
        if fs.hasDirectory p then (.ok (), fs) else (.error e, fs)
      match fs.makeDirectory p with
      | .ok made => (.ok (), made)
      | .error .notFound =>
        match makeDirectories fs parents with
        | (.error e, fs) => (.error e, fs)
        | (.ok (), fs) =>
          match fs.makeDirectory p with
          | .ok made => (.ok (), made)
          | .error e => orPresent fs e
      | .error e => orPresent fs e

/-- A name longer than every name in a tree. -/
def unusedName (tree : FileTree) : String :=
  let longest := (tree.entries.flatMap (·.1)).foldl (fun n name => max n name.length) 0
  ".tmp" ++ String.ofList (List.replicate longest 'x')

/-- A path as long as that of a temporary file in a directory, which is absolute and ends in six
random characters. -/
def temporaryPath (fs : Files) (inside : Path) : Path :=
  ((Path.ofSteps true fs.workingDirectory).join inside.text).join ".tmpxxxxxx"

/-- The place of a new file in a directory, and the files with it. -/
def addTemporary (fs : Files) (inside : Path) (content : ByteArray) :
    Except FileError (Place × Files) := do
  let place ← fs.tree.walk (fs.origin inside) inside.names
  let place ← directory fs.tree place
  if FileTree.longestPath < (fs.temporaryPath inside).text.utf8ByteSize then .error .nameTooLong
  else
    let temporary := place ++ [unusedName fs.tree]
    .ok (temporary, fs.withTree (fs.tree.put temporary (.file content)))

/-- The files after the file in a place has taken the place that a path stands for, where another
file may be. -/
def moveFile (fs : Files) (source : Place) (target : Path) : Except FileError Files := do
  match ← fs.newPlace target with
  | none => .error .busy
  | some place =>
    if target.demandsDirectory then .error .notDirectory
    else
      match fs.tree.get? place, fs.tree.get? source with
      | some .directory, _ => .error .isDirectory
      | _, some entry => .ok (fs.withTree ((fs.tree.remove source).put place entry))
      | _, none => .error .notFound

/-- The files after a file has been written whole, with the directories that lead to it. -/
def writeWhole (fs : Files) (p : Path) (content : ByteArray) : Outcome :=
  let made : Outcome :=
    match p.parent? with
    | some parent => fs.makeDirectories parent.ancestors
    | none => (.ok (), fs)
  match made with
  | (.error e, fs) => (.error e, fs)
  | (.ok (), fs) =>
    match fs.addTemporary (p.parent?.getD ⟨"."⟩) content with
    | .error e => (.error e, fs)
    | .ok (temporary, added) =>
      match added.moveFile temporary p with
      | .error e => (.error e, added.withTree (added.tree.remove temporary))
      | .ok moved => (.ok (), moved)

end ActionRegistry.Files
