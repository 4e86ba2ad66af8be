import ActionRegistry.Files.Tree

/-!
# The root of a project

The root is found from the working directory upwards: it is the nearest directory with the directory
of the task graph, wherever there is one, or else with the directory of the repository.
-/

namespace ActionRegistry

/-- A place and those above it, up to the top directory. -/
def upwards (place : Place) : List Place :=
  (List.range (place.length + 1)).reverse.map place.take

namespace FileTree

/-- Whether there is a directory of a name in the one in a place, however long the path to it is. -/
def holdsDirectory (t : FileTree) (name : String) (place : Place) : Bool :=
  t.get? (place ++ [name]) == some .directory

def nearest? (t : FileTree) (name : String) (place : Place) : Option Place :=
  (upwards place).find? (t.holdsDirectory name)

end FileTree

namespace Files

def taskGraphMarker : String := "taskcluster"

def repositoryMarker : String := ".git"

/-- The root of the project around the working directory, which is the working directory itself
where there is no marker. -/
def projectRoot (fs : Files) : Place :=
  ((fs.tree.nearest? taskGraphMarker fs.workingDirectory).or
    (fs.tree.nearest? repositoryMarker fs.workingDirectory)).getD fs.workingDirectory

end Files

end ActionRegistry
