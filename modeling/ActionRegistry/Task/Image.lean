import ActionRegistry.Error
import ActionRegistry.Files.Write

/-!
# Images

An image has a name in the configuration and a reference by which it can be pulled. In a project the
reference is read off files: the registry is that of the image or else that of all images, and the
version is that of the image.
-/

namespace ActionRegistry

/-- How the name of an image becomes a reference. -/
abbrev ImageResolver := String → Result String

namespace Image

def registry (fs : Files) (root : Path) (name : String) : Result String := do
  match ← Result.ofFile (fs.readTrimmed (root.imageDirectory name).registryFile) with
  | some registry => .ok registry
  | none =>
    match ← Result.ofFile (fs.readTrimmed root.imagesDirectory.registryFile) with
    | some registry => .ok registry
    | none => .error (.unresolvedImage name .noRegistry)

def version (fs : Files) (root : Path) (name : String) : Result String := do
  let path := (root.imageDirectory name).versionFile
  match ← Result.ofFile (fs.readTrimmed path) with
  | some version => .ok version
  | none => .error (.unresolvedImage name (.noVersion path))

def inProject (fs : Files) (root : Path) : ImageResolver := fun name => do
  let registry ← registry fs root name
  let version ← version fs root name
  .ok (registry ++ "/" ++ name ++ ":" ++ version)

end Image

end ActionRegistry
