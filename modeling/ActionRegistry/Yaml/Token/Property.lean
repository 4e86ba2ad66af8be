import ActionRegistry.Yaml.Token.Scalar

/-!
# Names, tags and directives

An anchor has a name, a tag has a handle and a suffix, and a directive tells the version or a short
form for tags. A tag may hold escaped octets. Each function tells what it reads and the place after
it, and has no result where the rules are broken.
-/

namespace ActionRegistry.Yaml.Token

/-! ### Names -/

/-- The characters that may follow the name of an anchor. -/
def endsName (c : Char) : Bool :=
  c == '?' || c == ':' || c == ',' || c == ']' || c == '\x7d' || c == '%' || c == '@' || c == '\x60'

/-- The name of an anchor or alias after its indicator. -/
def anchorName (c : Cursor) : Option (List Char × Cursor) :=
  let (name, c) := c.takeWhile isNameChar
  if name.isEmpty || !(endsWord c.peek || c.peek.any endsName) then none else some (name, c)

/-! ### Tags -/

/-- The characters of a tag, besides those of names. Brackets and the comma count only in a tag that
is written out in full. -/
def isTagChar (full : Bool) (c : Char) : Bool :=
  isNameChar c || ";/?:@&=+$.%!~*()".toList.contains c || c == '\x27'
    || (full && (c == ',' || c == '[' || c == ']'))

/-- How many octets a character has whose first octet is given. -/
def octetCount (first : Nat) : Nat :=
  if first < 0x80 then 1
  else if first < 0xC0 then 0
  else if first < 0xE0 then 2
  else if first < 0xF0 then 3
  else if first < 0xF8 then 4
  else 0

def escapedOctet? : List Char → Option Nat
  | '%' :: a :: b :: _ => hexNumber? [a, b]
  | _ => none

def escapedRest : Nat → Cursor → Option (TagPart × Cursor)
  | 0, c => some ([], c)
  | count + 1, c => do
    let octet ← escapedOctet? c.rest
    if octet < 0x80 || 0xC0 ≤ octet then none
    let (octets, c) ← escapedRest count (c.skip 3)
    pure (UInt8.ofNat octet :: octets, c)

/-- The octets of a tag and whether there are characters for them. -/
def tagOctets (full : Bool) : Nat → Cursor → Option (TagPart × Cursor)
  | 0, c => some ([], c)
  | fuel + 1, c =>
    match c.peek with
    | none => some ([], c)
    | some x =>
      if !isTagChar full x then some ([], c)
      else if x == '%' then do
        let octet ← escapedOctet? c.rest
        let count := octetCount octet
        if count = 0 then none
        let (more, c) ← escapedRest (count - 1) (c.skip 3)
        let (octets, c) ← tagOctets full fuel c
        pure (UInt8.ofNat octet :: (more ++ octets), c)
      else do
        let (octets, c) ← tagOctets full fuel (c.skip 1)
        pure (UInt8.ofNat x.toNat :: octets, c)

/-- A part of a tag, which ends before a zero octet. It must have characters. -/
def tagPart (full : Bool) (c : Cursor) : Option (TagPart × Cursor) := do
  let (octets, after) ← tagOctets full c.rest.length c
  if after.index = c.index then none
  pure (octets.takeWhile (· != 0), after)

def asciiOctets (cs : List Char) : TagPart := cs.map fun c => UInt8.ofNat c.toNat

/-- The handle at the start of a tag: an exclamation mark, a name and, if it is there, a second
mark. -/
def tagHandle (c : Cursor) : List Char × Cursor :=
  let (name, c) := (c.skip 1).takeWhile isNameChar
  if c.sees '!' then ('!' :: name ++ ['!'], c.skip 1) else ('!' :: name, c)

def isClosedHandle (handle : List Char) : Bool :=
  1 < handle.length && handle.getLast? == some '!'

/-- A tag that starts with a handle, or with a mark alone, which then is its handle. -/
def shortTag (c : Cursor) : Option (Token × Cursor) :=
  let (handle, c) := tagHandle c
  if isClosedHandle handle then
    (tagPart false c).map fun (suffix, c) => (.tag handle suffix, c)
  else do
    let (more, c) ← tagOctets false c.rest.length c
    let suffix := asciiOctets handle.tail ++ more.takeWhile (· != 0)
    pure (if suffix.isEmpty then .tag [] (asciiOctets ['!']) else .tag ['!'] suffix, c)

/-- A tag written out in full between angle brackets. -/
def fullTag (c : Cursor) : Option (Token × Cursor) := do
  let (suffix, c) ← tagPart true (c.skip 2)
  if c.sees '>' then some (.tag [] suffix, c.skip 1) else none

/-- A tag, after which the word must end; inside brackets a comma may follow too. -/
def tagToken (inFlow : Bool) (c : Cursor) : Option (Token × Cursor) := do
  let (token, c) ← if c.peekAt 1 == some '<' then fullTag c else shortTag c
  if endsWord c.peek || (inFlow && c.sees ',') then some (token, c) else none

/-! ### Directives -/

/-- A part of a version, of at most nine digits. -/
def versionPart (c : Cursor) : Option (Nat × Cursor) :=
  let (digits, c) := c.takeWhile Char.isDigit
  if digits.isEmpty || 9 < digits.length then none
  else some (digits.foldl (fun n d => n * 10 + (d.toNat - 48)) 0, c)

def versionDirective (c : Cursor) : Option (Token × Cursor) := do
  let (major, c) ← versionPart (c.skipWhile isBlank)
  if !c.sees '.' then none
  let (minor, c) ← versionPart (c.skip 1)
  pure (.version major minor, c)

def tagDirective (c : Cursor) : Option (Token × Cursor) := do
  let c := c.skipWhile isBlank
  if !c.sees '!' then none
  let (handle, c) := tagHandle c
  if !(isClosedHandle handle || handle = ['!']) || !c.peek.any isBlank then none
  let (start, c) ← tagPart true (c.skipWhile isBlank)
  if endsWord c.peek then some (.tagShorthand handle start, c) else none

/-- A directive with the rest of its line, after the percent sign. -/
def directive (c : Cursor) : Option (Token × Cursor) := do
  let (name, c) := c.takeWhile isNameChar
  if !endsWord c.peek then none
  let (token, c) ←
    if name = ['Y', 'A', 'M', 'L'] then versionDirective c
    else if name = ['T', 'A', 'G'] then tagDirective c
    else none
  let c ← c.skipRestOfLine
  pure (token, c)

end ActionRegistry.Yaml.Token
