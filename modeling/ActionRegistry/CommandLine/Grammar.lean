/-!
# The grammar of command lines

A command line names a command, through the groups that hold it, and gives options at each level.
An option has a name, some have a letter too, and the value of one may come from the environment.
-/

namespace ActionRegistry.CommandLine

inductive Role where
  | help
  | version
  /-- The option is there or not. -/
  | flag
  | text
  /-- The option has a path, which is not empty. -/
  | path
  deriving DecidableEq, Repr

def Role.hasValue : Role → Bool
  | text => true
  | path => true
  | _ => false

structure Opt where
  name : String
  letter : Option Char
  role : Role
  /-- The variable whose value counts if the option is not given. -/
  fallback : Option String

/-- The values of options by name, of which the first counts. A flag has the empty text. -/
abbrev Values := List (String × String)

abbrev Environment := List (String × String)

inductive Misuse where
  /-- A word has no meaning where it stands. -/
  | unexpected (word : String)
  /-- An option is given twice at one level. -/
  | repeated (option : String)
  | emptyPath (option : String)
  | noValue (option : String)
  | needlessValue (option : String)
  | missing (option : String)
  /-- The line ends with a group. -/
  | noCommand

def Misuse.message : Misuse → String
  | unexpected word => "unexpected argument '" ++ word ++ "'"
  | repeated option => "option --" ++ option ++ " cannot be used more than once"
  | emptyPath option => "option --" ++ option ++ " needs a path that is not empty"
  | noValue option => "option --" ++ option ++ " needs a value"
  | needlessValue option => "option --" ++ option ++ " takes no value"
  | missing option => "option --" ++ option ++ " is required"
  | noCommand => "a command is required"

/-- A command that stands for an `α`, or a group of commands. -/
inductive Command (α : Type) where
  | leaf (name : String) (options : List Opt) (meaning : Values → Except Misuse α)
  | group (name : String) (options : List Opt) (members : List (Command α))

namespace Command

variable {α : Type}

def name : Command α → String
  | leaf name _ _ => name
  | group name _ _ => name

def options : Command α → List Opt
  | leaf _ options _ => options
  | group _ options _ => options

def members : Command α → List (Command α)
  | leaf _ _ _ => []
  | group _ _ members => members

def member? (c : Command α) (name : String) : Option (Command α) :=
  c.members.find? fun m => m.name == name

def option? (c : Command α) (name : String) : Option Opt :=
  c.options.find? fun o => o.name == name

def optionOf? (c : Command α) (letter : Char) : Option Opt :=
  c.options.find? fun o => o.letter == some letter

end Command

inductive Word where
  /-- A name of an option, and the value that is attached to it. -/
  | option (name : String) (value : Option String)
  /-- Letters of options, the last of which may be followed by its value. -/
  | letters (letters : List Char)
  /-- Two dashes, behind which there are no options. -/
  | dashes
  | plain

/-- The text behind the first equals sign, if there is one. -/
def attachedValue (cs : List Char) : Option String :=
  match cs.dropWhile (· != '=') with
  | [] => none
  | _ :: value => some (String.ofList value)

def Word.ofText (s : String) : Word :=
  match s.toList with
  | '-' :: '-' :: [] => dashes
  | '-' :: '-' :: cs => option (String.ofList (cs.takeWhile (· != '='))) (attachedValue cs)
  | '-' :: c :: cs => letters (c :: cs)
  | _ => plain

/-- Whether a word can be the value of the option before it. -/
def Word.isValue : Word → Bool
  | plain => true
  | _ => false

def valueAfterLetter : List Char → Option String
  | [] => none
  | '=' :: value => some (String.ofList value)
  | value => some (String.ofList value)

end ActionRegistry.CommandLine
