import ActionRegistry.Decoding.Failure
import ActionRegistry.Files.Tree
import ActionRegistry.Json.Printer

/-!
# Errors

What can go wrong when actions are registered, rendered and run. An error keeps its cause; its
wording is in `Error.message` alone.
-/

namespace ActionRegistry

inductive ActionField where
  | name
  | title
  | description
  | schema
  deriving DecidableEq, Repr

def ActionField.text : ActionField → String
  | name => "name"
  | title => "title"
  | description => "description"
  | schema => "schema"

inductive FieldFault where
  | blank
  /-- The value is no JSON schema, which is an object or a truth value. -/
  | notSchema (got : Json)

inductive SourceFault where
  | malformed
  | documentCount (count : Nat)
  | frontMatter (failure : Decoding.Failure)
  | template (failure : Decoding.Failure)

inductive ImageFault where
  | noRegistry
  | noVersion (path : Path)
  | other (reason : String)

inductive Error where
  | invalidField (field : ActionField) (fault : FieldFault)
  | invalidSymbol (symbol : String)
  | alreadyRegistered (action : String)
  | duplicateAction (action : String)
  | duplicateCallback (callback : String)
  | notAFunction (typeName : String)
  | malformedSource (origin : String) (fault : SourceFault)
  /-- The task of an action has a key that is no text. -/
  | taskNotJson (action : String)
  | unrecognizedRepository (url : String)
  | missingParameter (key : String)
  | invalidParameter (key : String) (got : Json)
  | unknownCallback (callback : String) (known : List String)
  /-- A callback failed with an error of its own. -/
  | callbackFailed (callback : String) (reason : String)
  | unresolvedImage (name : String) (fault : ImageFault)
  | file (error : FileError)
  | yaml (failure : Decoding.Failure)

def FieldFault.message : FieldFault → String
  | blank => "must be a non-empty string"
  | notSchema got => "must be a JSON schema object or boolean, got " ++ got.compact

def SourceFault.message : SourceFault → String
  | malformed => "yaml"
  | documentCount n =>
    "expected front-matter and template documents, found " ++ toString n ++ " document(s)"
  | frontMatter f => "front-matter: " ++ f.message
  | template f => "template is not JSON compatible: " ++ f.message

def ImageFault.message : ImageFault → String
  | noRegistry => "no REGISTRY file"
  | noVersion path => "missing " ++ path.text
  | other reason => reason

def apostrophed (s : String) : String := "'" ++ s ++ "'"

namespace Error

def message : Error → String
  | invalidField field fault => "invalid " ++ field.text ++ ": " ++ fault.message
  | invalidSymbol symbol =>
    "symbol " ++ apostrophed symbol ++ " must be between 1 and 25 characters"
  | alreadyRegistered action =>
    "registration for action " ++ apostrophed action ++ " was already applied"
  | duplicateAction action => "action name " ++ apostrophed action ++ " is not unique"
  | duplicateCallback callback => "callback name " ++ apostrophed callback ++ " is not unique"
  | notAFunction typeName => "callback must be a named function, got " ++ typeName
  | malformedSource origin fault =>
    "malformed action source " ++ apostrophed origin ++ ": " ++ fault.message
  | taskNotJson action => "task for action " ++ apostrophed action ++ " is not JSON compatible"
  | unrecognizedRepository url => "unrecognized head_repository: " ++ url
  | missingParameter key => "missing run parameter: " ++ key
  | invalidParameter key got =>
    "invalid run parameter " ++ apostrophed key ++ ": expected a string or number, got "
      ++ got.compact
  | unknownCallback callback known =>
    "unknown callback: " ++ callback ++ ". Known callbacks: " ++ String.intercalate ", " known
  | callbackFailed callback _ => "callback " ++ apostrophed callback ++ " failed"
  | unresolvedImage name fault =>
    "image " ++ apostrophed name ++ " could not be resolved: " ++ fault.message
  | file e => e.message
  | yaml f => f.message

def source? : Error → Option String
  | taskNotJson _ => some "key must be a string"
  | callbackFailed _ reason => some reason
  | _ => none

end Error

abbrev Result (α : Type) := Except Error α

namespace Result

def ofFile {α : Type} (x : Except FileError α) : Result α := x.mapError .file

variable {ε ε' α β : Type}

@[simp] theorem ok_bind (a : α) (f : α → Except ε β) : (Except.ok a >>= f) = f a := rfl

@[simp] theorem error_bind (e : ε) (f : α → Except ε β) :
    ((Except.error e : Except ε α) >>= f) = .error e := rfl

theorem bind_eq_ok_iff {x : Except ε α} {f : α → Except ε β} {b : β} :
    (x >>= f) = .ok b ↔ ∃ a, x = .ok a ∧ f a = .ok b := by
  cases x <;> simp

@[simp] theorem map_ok (f : α → β) (a : α) : f <$> (Except.ok a : Except ε α) = .ok (f a) := rfl

@[simp] theorem map_error (f : α → β) (e : ε) :
    f <$> (Except.error e : Except ε α) = .error e := rfl

@[simp] theorem mapError_ok (f : ε → ε') (a : α) :
    (Except.ok a : Except ε α).mapError f = .ok a := rfl

@[simp] theorem mapError_error (f : ε → ε') (e : ε) :
    (Except.error e : Except ε α).mapError f = .error (f e) := rfl

theorem isOk_iff {x : Except ε α} : x.isOk = true ↔ ∃ a, x = .ok a := by
  cases x <;> simp [Except.isOk, Except.toBool]

theorem toOption_eq_some_iff {x : Except ε α} {a : α} : x.toOption = some a ↔ x = .ok a := by
  cases x <;> simp [Except.toOption]

theorem toOption_map_eq_some_iff {x : Except ε α} {f : α → β} {b : β} :
    x.toOption.map f = some b ↔ ∃ a, x = .ok a ∧ f a = b := by
  simp [toOption_eq_some_iff]

theorem toOption_bind_eq_some_iff {x : Except ε α} {f : α → Option β} {b : β} :
    x.toOption.bind f = some b ↔ ∃ a, x = .ok a ∧ f a = some b := by
  simp [Option.bind_eq_some_iff, toOption_eq_some_iff]

theorem mapError_eq_ok_iff {f : ε → ε'} {x : Except ε α} {a : α} :
    x.mapError f = .ok a ↔ x = .ok a := by
  cases x <;> simp

end Result

end ActionRegistry
