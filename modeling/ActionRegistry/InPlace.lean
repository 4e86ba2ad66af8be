import ActionRegistry.Error

/-!
# Work in place

Registries and handles are changed in place. An error ends the work where it is and takes nothing
back: what was written before it stays written.
-/

namespace ActionRegistry

/-- Work on a state, which an error may end. -/
abbrev InPlace (σ α : Type) := EStateM Error σ α

namespace InPlace

variable {σ τ α : Type}

def ofResult : Result α → InPlace σ α
  | .ok a => pure a
  | .error e => throw e

/-- Work on a part of the state. The part is put back also when an error ends the work. -/
def within (part : τ → σ) (put : τ → σ → τ) (work : InPlace σ α) : InPlace τ α := fun t =>
  match work.run (part t) with
  | .ok a s => .ok a (put t s)
  | .error e s => .error e (put t s)

/-- The state that work leaves behind, with or without an error. -/
def leaves (work : InPlace σ α) (s : σ) : σ :=
  match work.run s with
  | .ok _ s => s
  | .error _ s => s

def result (work : InPlace σ α) (s : σ) : Result σ :=
  match work.run s with
  | .ok _ s => .ok s
  | .error e _ => .error e

@[simp] theorem run_ofResult_ok (a : α) (s : σ) :
    (ofResult (.ok a) : InPlace σ α).run s = .ok a s := rfl

@[simp] theorem run_ofResult_error (e : Error) (s : σ) :
    (ofResult (.error e) : InPlace σ α).run s = .error e s := rfl

theorem run_within (part : τ → σ) (put : τ → σ → τ) (work : InPlace σ α) (t : τ) :
    (within part put work).run t =
      match work.run (part t) with
      | .ok a s => .ok a (put t s)
      | .error e s => .error e (put t s) := rfl

end InPlace

end ActionRegistry
