import ActionRegistry.Error

/-!
# The names of callbacks

A callback is named after its function, whose full name is a path with generic arguments in angle
brackets. The arguments do not count, and the name is what follows the last double colon. A function
without a name of its own, such as a closure or a pointer, names no callback.
-/

namespace ActionRegistry.CallbackName

/-- What types of functions without a name start with. -/
def pointerStarts : List String := ["fn(", "for<", "unsafe ", "extern "]

/-- A list without its groups in angle brackets, from a depth on, if the brackets match. The second
half of an arrow closes no group. -/
def stripGroups : (depth : Nat) → (previous : Option Char) → List Char → Option (List Char)
  | depth, _, [] => if depth = 0 then some [] else none
  | depth, previous, c :: cs =>
    if c = '<' then stripGroups (depth + 1) (some c) cs
    else if c = '>' then
      if previous = some '-' then stripGroups depth (some c) cs
      else
        match depth with
        | 0 => none
        | depth + 1 => stripGroups depth (some c) cs
    else
      match depth with
      | 0 => (stripGroups 0 (some c) cs).map (c :: ·)
      | depth + 1 => stripGroups (depth + 1) (some c) cs

/-- The characters that no path of a named function holds. -/
def isForeign (c : Char) : Bool := c == '\x7b' || c == '(' || c == ' ' || c == '&'

/-- What follows the last double colon, if there is one. -/
def afterLastColons? : List Char → Option (List Char)
  | [] => none
  | c :: cs =>
    match afterLastColons? cs with
    | some found => some found
    | none => if [':', ':'].isPrefixOf (c :: cs) then some cs.tail else none

def lastSegment (cs : List Char) : List Char := (afterLastColons? cs).getD cs

/-- The name of the callback that a function of a full name is. -/
def ofTypeName? (typeName : String) : Option String :=
  let cs := typeName.toList
  if pointerStarts.any fun start => start.toList.isPrefixOf cs then none
  else
    match stripGroups 0 none cs with
    | none => none
    | some path =>
      let name := lastSegment path
      if path.any isForeign || name.isEmpty then none else some (String.ofList name)

def ofTypeName (typeName : String) : Result String :=
  match ofTypeName? typeName with
  | some name => .ok name
  | none => .error (.notAFunction typeName)

end ActionRegistry.CallbackName
