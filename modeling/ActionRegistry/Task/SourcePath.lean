/-!
# Where an action is registered

A task tells the file that registered its action. A relative path is kept. An absolute one is cut
down to start at its last directory for sources, or to the name of the file.
-/

namespace ActionRegistry.SourcePath

def withSlashes (cs : List Char) : List Char := cs.map fun c => if c = '\\' then '/' else c

/-- Whether a path is absolute: it starts with a slash or with a drive letter of one octet. -/
def isAbsolute : List Char → Bool
  | '/' :: _ => true
  | c :: ':' :: _ => c.toNat < 0x80
  | _ => false

def fromLastSource? : List Char → Option (List Char)
  | [] => none
  | c :: cs =>
    match fromLastSource? cs with
    | some found => some found
    | none => if ['/', 's', 'r', 'c', '/'].isPrefixOf (c :: cs) then some cs else none

def lastName : List Char → List Char
  | [] => []
  | c :: cs => if cs.contains '/' then lastName cs else if c = '/' then cs else c :: cs

def ofFile (file : String) : String :=
  let cs := withSlashes file.toList
  if isAbsolute cs then String.ofList ((fromLastSource? cs).getD (lastName cs))
  else String.ofList cs

end ActionRegistry.SourcePath
