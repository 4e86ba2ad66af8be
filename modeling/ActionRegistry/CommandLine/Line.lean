import ActionRegistry.CommandLine.Grammar

/-!
# Reading command lines

Words are read from left to right, one level at a time. The options that are shared by all levels
may be given at any: the deepest counts, and a variable only if none is given. A value that is a
word of its own is looked at when the next option comes, or when the line ends.
-/

namespace ActionRegistry.CommandLine

variable {α : Type}

/-- A level of a command line: a command and the options that are given for it. -/
structure Level (α : Type) where
  command : Command α
  given : Values
  /-- An option with its value, still to be looked at. -/
  pending : Option (Opt × String)

/-- Where reading an option leads to. -/
inductive Progress (α : Type) where
  | help
  | version
  | next (level : Level α)
  /-- The next word is the value of an option. -/
  | awaits (option : Opt) (level : Level α)

namespace Level

def start (c : Command α) : Level α := ⟨c, [], none⟩

def add (l : Level α) (o : Opt) (value : String) : Except Misuse (Level α) :=
  if (l.given.lookup o.name).isSome then .error (.repeated o.name)
  else if o.role = .path ∧ value.isEmpty then .error (.emptyPath o.name)
  else .ok { l with given := (o.name, value) :: l.given }

/-- A level without an option that is still to be looked at. -/
def settle (l : Level α) : Except Misuse (Level α) :=
  match l.pending with
  | none => .ok l
  | some (o, value) => { l with pending := none }.add o value

/-- A level with the values that variables give to options that are not given. -/
def fill (env : Environment) (l : Level α) : Except Misuse (Level α) :=
  let fillOne (l : Level α) (o : Opt) : Except Misuse (Level α) :=
    match o.fallback.bind fun name => env.lookup name with
    | some value => if (l.given.lookup o.name).isSome then .ok l else l.add o value
    | none => .ok l
  l.command.options.foldlM fillOne l

/-- What an option leads to, given the value that is attached to it. -/
def take (l : Level α) (o : Opt) (attached : Option String) : Except Misuse (Progress α) := do
  let l ← l.settle
  match o.role.hasValue, attached with
  | true, some value => .next <$> l.add o value
  | true, none => .ok (.awaits o l)
  | false, some _ => .error (.needlessValue o.name)
  | false, none =>
    match o.role with
    | .help => .ok .help
    | .version => .ok .version
    | _ => .next <$> l.add o ""

def takeLetters (l : Level α) : List Char → Except Misuse (Progress α)
  | [] => .ok (.next l)
  | c :: cs =>
    match l.command.optionOf? c with
    | none => .error (.unexpected (String.ofList ['-', c]))
    | some o =>
      if o.role.hasValue then l.take o (valueAfterLetter cs)
      else do
        match ← l.take o none with
        | .next l => takeLetters l cs
        | progress => .ok progress

/-- What a word leads to that names no member of the command. -/
def takeWord (l : Level α) (word : String) : Except Misuse (Progress α) :=
  match Word.ofText word with
  | .option name value =>
    match l.command.option? name with
    | some o => l.take o value
    | none => .error (.unexpected word)
  | .letters cs => l.takeLetters cs
  | _ => .error (.unexpected word)

end Level

inductive Line (α : Type) where
  /-- Help for a command, which is reached by names. -/
  | help (names : List String) (command : Command α)
  | version (names : List String)
  | command (meaning : α)

namespace Line

def namesOf (levels : List (Level α)) : List String :=
  (levels.map fun l => l.command.name).reverse

def finish (env : Environment) (levels : List (Level α)) : Except Misuse (Line α) := do
  let settled ← levels.mapM Level.settle
  let filled ← settled.mapM (Level.fill env)
  match levels with
  | ⟨.leaf _ _ meaning, _, _⟩ :: _ =>
    command <$> meaning ((settled ++ filled).flatMap fun l => l.given)
  | _ => .error .noCommand

def helpName : String := "help"

def helpFor (reached : List String) (c : Command α) : List String → Except Misuse (Line α)
  | [] => .ok (help reached c)
  | name :: names =>
    match c.member? name with
    | some m => helpFor (reached ++ [name]) m names
    | none =>
      if name = helpName ∧ !c.members.isEmpty ∧ names.isEmpty then
        .ok (help (reached ++ [name]) (.group name [] []))
      else .error (.unexpected name)

/-- What the words of a line ask for behind a level. The levels above it are given from the deepest
up. -/
def readFrom (env : Environment) (above : List (Level α)) (l : Level α) :
    List String → Except Misuse (Line α)
  | [] => finish env (l :: above)
  | word :: words =>
    match l.command.member? word with
    | some c => readFrom env (l :: above) (.start c) words
    | none =>
      if word = helpName ∧ !l.command.members.isEmpty then
        helpFor (namesOf (l :: above)) l.command words
      else if word = "--" ∧ words.isEmpty then finish env (l :: above)
      else
        match l.takeWord word, words with
        | .error e, _ => .error e
        | .ok .help, _ => .ok (help (namesOf (l :: above)) l.command)
        | .ok .version, _ => .ok (version (namesOf (l :: above)))
        | .ok (.next l), words => readFrom env above l words
        | .ok (.awaits o _), [] => .error (.noValue o.name)
        | .ok (.awaits o l), value :: words =>
          if (Word.ofText value).isValue then
            readFrom env above { l with pending := some (o, value) } words
          else .error (.noValue o.name)

def read (c : Command α) (env : Environment) (words : List String) : Except Misuse (Line α) :=
  readFrom env [] (.start c) words

end Line

end ActionRegistry.CommandLine
