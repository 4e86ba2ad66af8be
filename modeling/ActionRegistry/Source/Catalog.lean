import ActionRegistry.Source.Basic

/-!
# Catalogs

A catalog loads its sources when its registry is first read, and keeps the registry from then on. A
loading that fails is not kept, so the next read tries again.
-/

namespace ActionRegistry

/-- Sources, and their registry once it is loaded. -/
structure Catalog where
  sources : List Source
  loaded : Option Registry

namespace Catalog

def ofSources (sources : List Source) : Catalog := ⟨sources, none⟩

def isLoaded (c : Catalog) : Bool := c.loaded.isSome

def reset (c : Catalog) : Catalog := { c with loaded := none }

structure Reading where
  result : Result Registry
  /-- The events, if the sources were loaded for it. -/
  log : List Log.Event
  catalog : Catalog

def read (c : Catalog) : Reading :=
  match c.loaded with
  | some r => ⟨.ok r, [], c⟩
  | none =>
    match Source.load c.sources with
    | (.ok r, log) => ⟨.ok r, log, { c with loaded := some r }⟩
    | (.error e, log) => ⟨.error e, log, c⟩

end Catalog

end ActionRegistry
