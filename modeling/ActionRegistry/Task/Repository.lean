import ActionRegistry.Error

/-!
# The scope of a repository

A task gets the permissions of its repository by a scope, which names the repository by its path on
the one known host. A slash at the end of the path does not count.
-/

namespace ActionRegistry.Repository

/-- The start of the addresses of repositories. -/
def host : String := "https://hg.mozilla.org/"

/-- What follows the start of a list, if the list starts with it. -/
def dropStart? : (start list : List Char) → Option (List Char)
  | [], rest => some rest
  | _ :: _, [] => none
  | a :: as, b :: bs => if a = b then dropStart? as bs else none

def dropFinalSlash (cs : List Char) : List Char :=
  if cs.getLast? = some '/' then cs.dropLast else cs

/-- The path on the host of the repository with an address; it holds no line feed. -/
def path? (url : String) : Option String :=
  match dropStart? host.toList url.toList with
  | some rest => if rest.contains '\n' then none else some (String.ofList (dropFinalSlash rest))
  | none => none

def scope (url : String) : Result String :=
  match path? url with
  | some path => .ok ("assume:repo:hg.mozilla.org/" ++ path ++ ":*")
  | none => .error (.unrecognizedRepository url)

end ActionRegistry.Repository
