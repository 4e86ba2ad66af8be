import ActionRegistry.Yaml.Scalar

/-!
# Following aliases

Decoding a document goes from an alias to the node it stands for. A node may be reached that way
from inside itself, and aliases of aliases multiply, so the number of jumps is bounded by the size
of the document, and the depth of collections by a constant.
-/

namespace ActionRegistry.Yaml

open Decoding

/-- The greatest depth to which collections may nest. -/
def greatestDepth : Nat := 128

/-- How many jumps there may be for each part of a document. -/
def jumpsPerPart : Nat := 100

/-- The nodes that the aliases of a document stand for. -/
structure Targets where
  /-- The nodes with slots, the later of one slot first. -/
  slotted : List (Nat × Node)

namespace Targets

def ofDocument (d : Document) : Targets := ⟨d.root.slotted.reverse⟩

def get? (t : Targets) (slot : Nat) : Option Node := t.slotted.lookup slot

/-- The node that an alias stands for, and every other node itself. -/
def follow (t : Targets) : Node → Node
  | .reference slot => (t.get? slot).getD .broken
  | n => n

end Targets

/-- Decoding with a number of jumps that are left. -/
abbrev Jumping (α : Type) := StateT Nat (Except Failure) α

def Document.jumps (d : Document) : Nat := jumpsPerPart * d.root.size

/-- The node that an alias stands for, which takes a jump, and every other node itself. -/
def Targets.jump (t : Targets) (n : Node) : Jumping Node := do
  match n with
  | .reference _ =>
    let left ← get
    if left = 0 then throw (.here .tooManyJumps)
    set (left - 1)
    pure (t.follow n)
  | n => pure n

def Jumping.inside {α : Type} (step : PathStep) (x : Jumping α) : Jumping α := fun left =>
  (x left).mapError (.inside step)

/-- What is decoded of a document that is the only one of its text. A failure in the document goes
before one behind it. -/
def Document.only {α : Type} (documents : List Document) (decode : Document → Decoded α) :
    Decoded α :=
  match documents with
  | [] => malformed
  | d :: others => do
    let a ← decode d
    if !d.isIntact then malformed
    else if others.isEmpty then .ok a
    else .error (.here .severalDocuments)

end ActionRegistry.Yaml
