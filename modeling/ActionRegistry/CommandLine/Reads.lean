import ActionRegistry.CommandLine.Execute

/-!
# What a command reads

Which paths a command looks at depends on the files themselves: on the markers above the working
directory, and on the image that the configuration names. The paths are told as far as the files are
known; three rounds of looking are enough to know all.
-/

namespace ActionRegistry.CommandLine

/-- The places on the way that names lead from a place, and the place at its end. -/
def placesFrom (place : Place) : List String → List Place
  | [] => [place]
  | name :: names =>
    place :: placesFrom (if name = ".." then place.dropLast else place ++ [name]) names

def placesOf (fs : Files) (p : Path) : List Place :=
  placesFrom [] (fs.origin p ++ p.names)

def markers (fs : Files) : List Place :=
  (upwards fs.workingDirectory).flatMap fun place =>
    [place ++ [Files.taskGraphMarker], place ++ [Files.repositoryMarker]]

def imageFiles (fs : Files) (root : Path) : List Path :=
  match TaskConfig.load fs root with
  | .error _ => []
  | .ok c =>
    let directory := root.imageDirectory c.image
    [directory.registryFile, directory.versionFile, root.imagesDirectory.registryFile]

def Job.files : Job → List Path
  | render parameters _ output => parameters :: output.toList
  | _ => []

def Request.paths (r : Request) (fs : Files) : List Path :=
  let root := r.rootIn fs
  [root.configFile] ++ imageFiles fs root ++ r.job.files

/-- The places that a command line makes the program look at, as far as the files are known. -/
def places (environment : Environment) (fs : Files) (words : List String) : List Place :=
  match Request.read environment words with
  | .ok (.command r) => markers fs ++ (r.paths fs).flatMap (placesOf fs)
  | _ => []

def variableNames : List String :=
  (Request.sharedOptions ++ Request.renderOptions ++ Request.callbackOptions).filterMap (·.fallback)

/-- The entries that a tree has and another has not, those above before those below. -/
def newEntries (tree : FileTree) (before : FileTree) : List (Place × Entry) :=
  let isNew (e : Place × Entry) : Bool := before.get? e.1 != some e.2
  (tree.entries.filter isNew).mergeSort fun a b => a.1.length ≤ b.1.length

end ActionRegistry.CommandLine
