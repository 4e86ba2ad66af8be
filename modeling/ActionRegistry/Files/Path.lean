/-!
# Paths

A path is a text whose names are separated by slashes. Joining and taking the parent work on the
text alone; only a file tree says what a path stands for. The files of a project that belong to
actions lie at fixed paths from its root.
-/

namespace ActionRegistry

structure Path where
  text : String
  deriving DecidableEq, Repr

namespace Path

/-- The pieces of a list between slashes. There is one more piece than there are slashes. -/
def splitSlashes : List Char → List (List Char)
  | [] => [[]]
  | c :: cs =>
    if c = '/' then [] :: splitSlashes cs
    else
      match splitSlashes cs with
      | [] => [[c]]
      | piece :: pieces => (c :: piece) :: pieces

def pieces (p : Path) : List String := (splitSlashes p.text.toList).map String.ofList

def isAbsolute (p : Path) : Bool := p.text.toList.head? == some '/'

/-- A path inside another. An absolute path stands for itself, and an empty one adds a slash. -/
def join (base : Path) (name : String) : Path :=
  if (Path.mk name).isAbsolute then ⟨name⟩
  else if base.text.isEmpty || base.text.toList.getLast? == some '/' then ⟨base.text ++ name⟩
  else ⟨base.text ++ "/" ++ name⟩

/-- The names of a path, without the dots that stand for the directory itself. -/
def names (p : Path) : List String := p.pieces.filter fun name => name != "" && name != "."

/-- The last name of a path, be it a dot or two. -/
def lastName? (p : Path) : Option String := (p.pieces.filter (· != "")).getLast?

/-- Whether a path ends in a slash or a dot, so that only a directory can stand there. -/
def demandsDirectory (p : Path) : Bool :=
  match p.pieces.getLast? with
  | some name => name == "" || name == "."
  | none => false

/-- The names of a path with the dot that starts it, if one does. -/
def steps (p : Path) : List String :=
  if p.pieces.head? = some "." then "." :: p.names else p.names

def ofSteps (absolute : Bool) (names : List String) : Path :=
  ⟨(if absolute then "/" else "") ++ String.intercalate "/" names⟩

/-- The path without its last name. The empty path and the top directory have no parent, and the
parent of a single name is the empty path. -/
def parent? (p : Path) : Option Path :=
  if p.steps.isEmpty then none else some (ofSteps p.isAbsolute p.steps.dropLast)

/-- A path of names with all that start with it, the longest first. -/
def ancestorsOf (absolute : Bool) : (reversed : List String) → List Path
  | [] => [ofSteps absolute []]
  | name :: names => ofSteps absolute (name :: names).reverse :: ancestorsOf absolute names

/-- A path and its parents, from the path up. -/
def ancestors (p : Path) : List Path := ancestorsOf p.isAbsolute p.steps.reverse

/-! ### The files of a project -/

def configFile (root : Path) : Path := root.join "taskcluster/actions.yml"

def imagesDirectory (root : Path) : Path := root.join "taskcluster/docker"

def imageDirectory (root : Path) (name : String) : Path := root.imagesDirectory.join name

/-- The file that names the registry of images, in a directory of one image or of all. -/
def registryFile (directory : Path) : Path := directory.join "REGISTRY"

def versionFile (directory : Path) : Path := directory.join "VERSION"

end Path

end ActionRegistry
