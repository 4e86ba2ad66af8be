import ActionRegistry.CommandLine.Reads
import ActionRegistry.Slug

/-!
# The program

The program looks at the places that its command line is about, runs the command on what it has
seen, and brings the directories and files that are new to their places. A file is written beside
its place and then moved there.
-/

namespace ActionRegistry.Program

open CommandLine

def textOf (place : Place) : String := (Path.ofSteps true place).text

def look (place : Place) : IO (Option Entry) := do
  let item : IO.FS.DirEntry := ⟨"/", String.intercalate "/" place⟩
  match ← item.path.metadata.toBaseIO with
  | .error _ => return none
  | .ok metadata =>
    match metadata.type with
    | .dir => return some .directory
    | .file => return some (.file (← IO.FS.readBinFile item.path))
    | _ => return none

/-- The files with what is in some places that are not known. -/
def lookAll (fs : Files) (places : List Place) : IO Files := do
  let mut tree := fs.tree
  for place in places do
    if (tree.get? place).isNone then
      if let some entry ← look place then tree := tree.put place entry
  return fs.withTree tree

def bring (entry : Place × Entry) : IO Unit := do
  let path := textOf entry.1
  match entry.2 with
  | .directory => IO.FS.createDirAll path
  | .file content =>
    let temporary := path ++ ".new"
    IO.FS.writeBinFile temporary content
    IO.FS.rename temporary path

def environment : IO Environment :=
  variableNames.filterMapM fun name => do
    return (← IO.getEnv name).map fun value => (name, value)

def freshGroup : IO String := do
  let octets ← IO.getRandomBytes 16
  return Slug.ofIdentifier (Slug.randomIdentifier (Vector.ofFn fun i => octets.data.getD i 0))

def run (words : List String) : IO UInt32 := do
  let environment ← environment
  let mut files : Files := ⟨.empty, (Path.mk (← IO.currentDir).toString).names⟩
  for _ in [1, 2, 3] do
    files ← lookAll files (places environment files words)
  let report := CommandLine.run ⟨files, environment, ← freshGroup⟩ words
  (newEntries report.files.tree files.tree).forM bring
  for message in report.messages do
    IO.eprintln message
  IO.print report.output
  return report.code

end ActionRegistry.Program

def main (words : List String) : IO UInt32 := ActionRegistry.Program.run words
