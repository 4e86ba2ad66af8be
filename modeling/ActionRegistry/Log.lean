import ActionRegistry.Error

/-!
# Log events

An event has a level, a message and named values, and may tell an error. On a line the message comes
first and the error last; a text that is recorded as a value is quoted, and one that is recorded for
display is not.
-/

namespace ActionRegistry.Log

/-- How important an event is, from the least to the most. -/
inductive Level where
  | info
  | warning
  | error
  deriving DecidableEq, Repr

def Level.text : Level → String
  | info => "INFO"
  | warning => "WARN"
  | error => "ERROR"

def Level.rank : Level → Nat
  | info => 0
  | warning => 1
  | error => 2

inductive Value where
  /-- A text for display. -/
  | shown (text : String)
  /-- A text as a value. -/
  | quoted (text : String)
  | count (n : Nat)
  | flag (b : Bool)
  deriving DecidableEq, Repr

def Value.text : Value → String
  | shown s => s
  | quoted s => s
  | count n => toString n
  | flag b => if b then "true" else "false"

def Value.onLine : Value → String
  | quoted s => Text.quoted s
  | v => v.text

structure Event where
  level : Level
  message : String
  values : List (String × Value)
  error : Option Error := none

/-- One character of a message on a line. Controls that a terminal would act on are spelled out. -/
def messageChar (c : Char) : String :=
  let n := c.toNat
  if n = 0x07 ∨ n = 0x08 then "\\x0" ++ Text.hex n
  else if n = 0x0C then "\\x0c"
  else if n = 0x1B ∨ n = 0x7F then "\\x" ++ Text.hex n
  else if 0x80 ≤ n ∧ n ≤ 0x9F then "\\u\x7b" ++ Text.hex n ++ "\x7d"
  else c.toString

def Event.line (e : Event) : String :=
  let values := e.values.map fun v => " " ++ v.1 ++ "=" ++ v.2.onLine
  let error := (e.error.map fun e => " error=" ++ e.message).getD ""
  let message := String.join (e.message.toList.map messageChar)
  e.level.text ++ " " ++ message ++ String.join values ++ error

end ActionRegistry.Log
