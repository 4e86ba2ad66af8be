import ActionRegistry.Number.Decimal
import ActionRegistry.SortedMap

/-!
# JSON values

A number is an integer as long as it fits sixty-four bits, signed or unsigned, and a double beyond
that. An object is the list of its fields; the readers and `Json.ofFields` keep the fields in
ascending order of their names, each name once.
-/

namespace ActionRegistry

inductive Number where
  /-- A number written without fraction and exponent that fits sixty-four bits. -/
  | integer (value : Int)
  /-- Any other number. -/
  | float (value : Binary64)
  deriving DecidableEq, Repr

namespace Number

/-- A double has a point or an exponent in its text; it has no exponent as long as its text is
short. -/
def layout : Layout := ⟨some 17, some 4⟩

def text : Number → String
  | integer n => toString n
  | float x => layout.text x

/-- Whether the number is zero, of whatever sign and form. -/
def isZero : Number → Bool
  | integer n => n == 0
  | float x => x.isZero

end Number

inductive Json where
  | null
  | bool (value : Bool)
  | number (value : Number)
  | string (value : String)
  | array (items : List Json)
  | object (fields : List (String × Json))
  deriving Inhabited

namespace Json

/-- The object of a list of fields, of which the last of a name counts. -/
def ofFields (fields : List (String × Json)) : Json :=
  object (fields.foldl (fun sorted field => putEntry field.1 field.2 sorted) [])

def ofMap (m : SortedMap Json) : Json :=
  object m.entries

def ofInt (n : Int) : Json := number (.integer n)

def field? (name : String) : Json → Option Json
  | object fields => fields.lookup name
  | _ => none

def text? : Json → Option String
  | string s => some s
  | _ => none

/-! ### Equality -/

mutual

def decEq : (a b : Json) → Decidable (a = b)
  | null, b =>
    match b with
    | null => isTrue rfl
    | bool _ | number _ | string _ | array _ | object _ => isFalse nofun
  | bool x, b =>
    match b with
    | bool y => decidable_of_iff (x = y) (by simp)
    | null | number _ | string _ | array _ | object _ => isFalse nofun
  | number x, b =>
    match b with
    | number y => decidable_of_iff (x = y) (by simp)
    | null | bool _ | string _ | array _ | object _ => isFalse nofun
  | string x, b =>
    match b with
    | string y => decidable_of_iff (x = y) (by simp)
    | null | bool _ | number _ | array _ | object _ => isFalse nofun
  | array items, b =>
    match b with
    | array items' =>
      let _ := decEqItems items items'
      decidable_of_iff (items = items') (by simp)
    | null | bool _ | number _ | string _ | object _ => isFalse nofun
  | object fields, b =>
    match b with
    | object fields' =>
      let _ := decEqFields fields fields'
      decidable_of_iff (fields = fields') (by simp)
    | null | bool _ | number _ | string _ | array _ => isFalse nofun

def decEqItems : (as bs : List Json) → Decidable (as = bs)
  | [], [] => isTrue rfl
  | [], _ :: _ => isFalse nofun
  | _ :: _, [] => isFalse nofun
  | a :: as, b :: bs =>
    let _ := decEq a b
    let _ := decEqItems as bs
    decidable_of_iff (a = b ∧ as = bs) (by simp)

def decEqFields : (as bs : List (String × Json)) → Decidable (as = bs)
  | [], [] => isTrue rfl
  | [], _ :: _ => isFalse nofun
  | _ :: _, [] => isFalse nofun
  | (k, a) :: as, (l, b) :: bs =>
    let _ := decEq a b
    let _ := decEqFields as bs
    decidable_of_iff (k = l ∧ a = b ∧ as = bs) (by simp [and_assoc])

end

instance : DecidableEq Json := decEq

end Json

end ActionRegistry
