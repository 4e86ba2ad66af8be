import ActionRegistry.Yaml.Token.Scan

/-!
# The nodes of a YAML text

Tokens are read into documents, each a tree of nodes. Where the rules are broken the tree has a
broken node in the place of what would have followed, so that everything before it can still be
read.

A node with an anchor has a slot, and an alias tells the slot of its node. The slot of an anchor is
the number of names in use when it is met, also when its own name is in use already. So a slot may
be taken twice; then it belongs to the later node, for the aliases before it too.
-/

namespace ActionRegistry.Yaml

abbrev Tag := List UInt8

inductive Node where
  | scalar (tag : Option Tag) (slot : Option Nat) (text : String) (style : ScalarStyle)
  | sequence (tag : Option Tag) (slot : Option Nat) (items : List Node)
  | mapping (tag : Option Tag) (slot : Option Nat) (entries : List (Node × Node))
  | reference (slot : Nat)
  /-- The place where the rules are broken. -/
  | broken
  deriving Inhabited

namespace Node

/-- What stands where nothing is written. -/
def empty : Node := .scalar none none "" .plain

mutual

/-- Whether the rules hold to the end of a node. -/
def isComplete : Node → Bool
  | scalar .. => true
  | reference _ => true
  | sequence _ _ items => areComplete items
  | mapping _ _ entries => entriesAreComplete entries
  | broken => false

def areComplete : List Node → Bool
  | [] => true
  | n :: ns => isComplete n && areComplete ns

def entriesAreComplete : List (Node × Node) → Bool
  | [] => true
  | (k, v) :: es => isComplete k && isComplete v && entriesAreComplete es

end

mutual

/-- The number of scalars, aliases, starts and ends of collections in a node. -/
def size : Node → Nat
  | scalar .. => 1
  | reference _ => 1
  | sequence _ _ items => sizes items + (if areComplete items then 2 else 1)
  | mapping _ _ entries => entrySizes entries + (if entriesAreComplete entries then 2 else 1)
  | broken => 0

def sizes : List Node → Nat
  | [] => 0
  | n :: ns => size n + sizes ns

def entrySizes : List (Node × Node) → Nat
  | [] => 0
  | (k, v) :: es => size k + size v + entrySizes es

end

/-- A node with its slot, if it has one, before the nodes found in it. -/
def withSlot (slot : Option Nat) (n : Node) (inside : List (Nat × Node)) : List (Nat × Node) :=
  match slot with
  | some i => (i, n) :: inside
  | none => inside

mutual

/-- The nodes with slots, in the order in which they start. -/
def slotted : Node → List (Nat × Node)
  | scalar tag slot text style => withSlot slot (.scalar tag slot text style) []
  | sequence tag slot items => withSlot slot (.sequence tag slot items) (slottedItems items)
  | mapping tag slot entries => withSlot slot (.mapping tag slot entries) (slottedEntries entries)
  | reference _ => []
  | broken => []

def slottedItems : List Node → List (Nat × Node)
  | [] => []
  | n :: ns => slotted n ++ slottedItems ns

def slottedEntries : List (Node × Node) → List (Nat × Node)
  | [] => []
  | (k, v) :: es => slotted k ++ slotted v ++ slottedEntries es

end

end Node

structure Document where
  root : Node
  /-- Whether the rules hold to the end of the document. -/
  isIntact : Bool

/-- What is left to read, and what was agreed on before. -/
structure Feed where
  tokens : List Token
  shorthands : List (List Char × TagPart)
  /-- The names of anchors in use, with their slots. -/
  anchors : List (List Char × Nat)

/-- What was read, and what is left unless the rules were broken. -/
abbrev Reading (α : Type) := α × Option Feed

namespace Feed

def resume (feed : Feed) (tokens : List Token) : Feed := { feed with tokens }

/-- The name of an anchor and the tag before a node. -/
structure Properties where
  anchor : Option (List Char)
  tag : Option Tag

def tagOf? (feed : Feed) (handle : List Char) (suffix : TagPart) : Option Tag :=
  if handle.isEmpty then some suffix
  else (feed.shorthands.lookup handle).map (· ++ suffix)

/-- The properties before a node, in either order, and what follows. -/
def properties (feed : Feed) : Option (Properties × Feed) :=
  match feed.tokens with
  | .anchor name :: .tag handle suffix :: rest =>
    (feed.tagOf? handle suffix).map fun tag => (⟨some name, some tag⟩, feed.resume rest)
  | .tag handle suffix :: .anchor name :: rest =>
    (feed.tagOf? handle suffix).map fun tag => (⟨some name, some tag⟩, feed.resume rest)
  | .anchor name :: rest => some (⟨some name, none⟩, feed.resume rest)
  | .tag handle suffix :: rest =>
    (feed.tagOf? handle suffix).map fun tag => (⟨none, some tag⟩, feed.resume rest)
  | _ => some (⟨none, none⟩, feed)

/-- The slot of an anchor, which its name now stands for. -/
def define (feed : Feed) : Option (List Char) → Option Nat × Feed
  | none => (none, feed)
  | some name =>
    let slot := feed.anchors.length
    let others := feed.anchors.filter (·.1 != name)
    (some slot, { feed with anchors := (name, slot) :: others })

end Feed

namespace Node

/-- An empty node before one of some tokens, and else what is read. -/
def readUnless (stops : Token → Bool) (read : Feed → Reading Node) (feed : Feed) : Reading Node :=
  match feed.tokens with
  | [] => (broken, none)
  | token :: _ => if stops token then (empty, some feed) else read feed

/-- The node after a token, or an empty node if the token is not there. -/
def readAfter (token : Token) (read : Feed → Reading Node) (feed : Feed) : Reading Node :=
  match feed.tokens with
  | [] => (broken, none)
  | t :: rest => if t = token then read (feed.resume rest) else (empty, some feed)

def readItems (first : Reading Node) (others : Feed → Reading (List Node)) : Reading (List Node) :=
  match first with
  | (n, none) => ([n], none)
  | (n, some feed) =>
    let (ns, feed) := others feed
    (n :: ns, feed)

def readEntry (key : Reading Node) (value : Feed → Reading Node) : Reading (Node × Node) :=
  match key with
  | (k, none) => ((k, broken), none)
  | (k, some feed) =>
    let (v, feed) := value feed
    ((k, v), feed)

def readEntries (first : Reading (Node × Node)) (others : Feed → Reading (List (Node × Node))) :
    Reading (List (Node × Node)) :=
  match first with
  | (e, none) => ([e], none)
  | (e, some feed) =>
    let (es, feed) := others feed
    (e :: es, feed)

def brokenItems : Reading (List Node) := ([broken], none)

def brokenEntries : Reading (List (Node × Node)) := ([(broken, broken)], none)

def endsBlockItem (t : Token) : Bool := t = .blockEntry || t = .blockEnd

/-- Whether a token ends an item of a sequence that is not indented. -/
def endsFlatItem (t : Token) : Bool :=
  t = .blockEntry || t = .key || t = .value || t = .blockEnd

/-- Whether a token ends a key or value of a block mapping. -/
def endsBlockEntry (t : Token) : Bool := t = .key || t = .value || t = .blockEnd

def endsFlowItem (close : Token) (t : Token) : Bool := t = .flowEntry || t = close

mutual

/-- A node, which is a block only where one may stand; where the items of a sequence need not be
indented, they may follow at once. -/
def read : Nat → (inBlock isFlat : Bool) → Feed → Reading Node
  | 0, _, _, _ => (broken, none)
  | fuel + 1, inBlock, isFlat, feed =>
    match feed.tokens with
    | .reference name :: rest =>
      match feed.anchors.lookup name with
      | some slot => (.reference slot, some (feed.resume rest))
      | none => (broken, none)
    | _ =>
      match feed.properties with
      | none => (broken, none)
      | some (p, feed) =>
        let (slot, defined) := feed.define p.anchor
        match feed.tokens with
        | [] => (broken, none)
        | .scalar text style :: rest =>
          let tag := p.tag.filter (· != Token.asciiOctets ['!'])
          (.scalar tag slot (String.ofList text) style, some (defined.resume rest))
        | .flowSequenceStart :: rest =>
          let (items, feed) := flowItems fuel true (defined.resume rest)
          (.sequence p.tag slot items, feed)
        | .flowMappingStart :: rest =>
          let (entries, feed) := flowEntries fuel true (defined.resume rest)
          (.mapping p.tag slot entries, feed)
        | token :: rest =>
          if token = .blockEntry && isFlat then
            let (items, feed) := flatItems fuel defined
            (.sequence p.tag slot items, feed)
          else if token = .blockSequenceStart && inBlock then
            let (items, feed) := blockItems fuel (defined.resume rest)
            (.sequence p.tag slot items, feed)
          else if token = .blockMappingStart && inBlock then
            let (entries, feed) := blockEntries fuel (defined.resume rest)
            (.mapping p.tag slot entries, feed)
          else if p.anchor.isSome || p.tag.isSome then
            (.scalar p.tag slot "" .plain, some defined)
          else (broken, none)

def blockItems : Nat → Feed → Reading (List Node)
  | 0, _ => brokenItems
  | fuel + 1, feed =>
    match feed.tokens with
    | .blockEntry :: rest =>
      readItems (readUnless endsBlockItem (read fuel true false) (feed.resume rest))
        (blockItems fuel)
    | .blockEnd :: rest => ([], some (feed.resume rest))
    | _ => brokenItems

def flatItems : Nat → Feed → Reading (List Node)
  | 0, _ => brokenItems
  | fuel + 1, feed =>
    match feed.tokens with
    | .blockEntry :: rest =>
      readItems (readUnless endsFlatItem (read fuel true false) (feed.resume rest)) (flatItems fuel)
    | [] => brokenItems
    | _ => ([], some feed)

def blockEntries : Nat → Feed → Reading (List (Node × Node))
  | 0, _ => brokenEntries
  | fuel + 1, feed =>
    match feed.tokens with
    | .key :: rest =>
      let part := readUnless endsBlockEntry (read fuel true true)
      readEntries (readEntry (part (feed.resume rest)) (readAfter .value part)) (blockEntries fuel)
    | .blockEnd :: rest => ([], some (feed.resume rest))
    | _ => brokenEntries

def flowItems : Nat → (isFirst : Bool) → Feed → Reading (List Node)
  | 0, _, _ => brokenItems
  | fuel + 1, isFirst, feed =>
    match feed.tokens, isFirst with
    | .flowSequenceEnd :: rest, _ => ([], some (feed.resume rest))
    | .flowEntry :: rest, false => flowItem fuel (feed.resume rest)
    | [], _ => brokenItems
    | _, true => flowItem fuel feed
    | _, false => brokenItems

/-- An item of a sequence between brackets, if there is one, and the others. An item may be a
mapping of one entry. -/
def flowItem : Nat → Feed → Reading (List Node)
  | 0, _ => brokenItems
  | fuel + 1, feed =>
    match feed.tokens with
    | .flowSequenceEnd :: rest => ([], some (feed.resume rest))
    | .key :: rest =>
      let (entry, feed) := flowPair fuel (feed.resume rest)
      readItems (.mapping none none [entry], feed) (flowItems fuel false)
    | _ => readItems (read fuel false false feed) (flowItems fuel false)

/-- The entry of a mapping of one entry, after the question mark or before the colon of its key. A
token that ends the key at once is passed over. -/
def flowPair : Nat → Feed → Reading (Node × Node)
  | 0, _ => ((broken, broken), none)
  | fuel + 1, feed =>
    let part := read fuel false false
    let value := readAfter .value (readUnless (endsFlowItem .flowSequenceEnd) part)
    match feed.tokens with
    | [] => ((broken, broken), none)
    | token :: rest =>
      if token = .value || endsFlowItem .flowSequenceEnd token then
        readEntry (empty, some (feed.resume rest)) value
      else readEntry (part feed) value

def flowEntries : Nat → (isFirst : Bool) → Feed → Reading (List (Node × Node))
  | 0, _, _ => brokenEntries
  | fuel + 1, isFirst, feed =>
    match feed.tokens, isFirst with
    | .flowMappingEnd :: rest, _ => ([], some (feed.resume rest))
    | .flowEntry :: rest, false => flowEntry fuel (feed.resume rest)
    | [], _ => brokenEntries
    | _, true => flowEntry fuel feed
    | _, false => brokenEntries

def flowEntry : Nat → Feed → Reading (List (Node × Node))
  | 0, _ => brokenEntries
  | fuel + 1, feed =>
    let part := read fuel false false
    match feed.tokens with
    | .flowMappingEnd :: rest => ([], some (feed.resume rest))
    | .key :: rest =>
      let key :=
        readUnless (fun t => t = .value || endsFlowItem .flowMappingEnd t) part (feed.resume rest)
      let value := readAfter .value (readUnless (endsFlowItem .flowMappingEnd) part)
      readEntries (readEntry key value) (flowEntries fuel false)
    | _ =>
      let value := readUnless (fun _ => true) part
      readEntries (readEntry (part feed) value) (flowEntries fuel false)

end

end Node

namespace Document

def standardShorthands : List (List Char × TagPart) :=
  [(['!'], Token.asciiOctets ['!']),
    (['!', '!'], Token.asciiOctets "tag:yaml.org,2002:".toList)]

/-- The short forms told by directives, and the tokens after these. A short form or the version may
be told once, and the version is 1.1 or 1.2. -/
def directives : List Token → (hasVersion : Bool) → List (List Char × TagPart) →
    Option (List (List Char × TagPart) × List Token)
  | .version major minor :: rest, hasVersion, told =>
    if hasVersion || major != 1 || (minor != 1 && minor != 2) then none
    else directives rest true told
  | .tagShorthand handle start :: rest, hasVersion, told =>
    if (told.lookup handle).isSome then none
    else directives rest hasVersion (told ++ [(handle, start)])
  | tokens, _, told => some (told, tokens)

def endsDocument : Token → Bool
  | .version .. => true
  | .tagShorthand .. => true
  | .documentStart => true
  | .documentEnd => true
  | .streamEnd => true
  | _ => false

def broken : Document := ⟨.broken, false⟩

/-- A document from its node on, and the tokens after it unless the rules are broken. -/
def content (read : Feed → Reading Node) (feed : Feed) : Document × Option (List Token) :=
  match read feed with
  | (root, none) => (⟨root, false⟩, none)
  | (root, some feed) =>
    match feed.tokens with
    | [] => (⟨root, false⟩, none)
    | .documentEnd :: rest => (⟨root, true⟩, some rest)
    | tokens => (⟨root, true⟩, some tokens)

/-- The documents of a list of tokens. Only the first may start without a marker; it is there even
if the text is empty. -/
def ofTokens : Nat → (isFirst : Bool) → List Token → List Document
  | 0, _, _ => []
  | fuel + 1, isFirst, tokens =>
    let node := Node.read (4 * tokens.length + 8) true false
    let continued (d : Document × Option (List Token)) : List Document :=
      d.1 :: d.2.elim [] (ofTokens fuel false)
    match if isFirst then tokens else tokens.dropWhile (· == .documentEnd) with
    | [] => [broken]
    | .streamEnd :: _ => if isFirst then [⟨.empty, true⟩] else []
    | token :: rest =>
      if isFirst && (token == .documentEnd || !endsDocument token) then
        continued (content node ⟨token :: rest, standardShorthands, []⟩)
      else
        match directives (token :: rest) false [] with
        | some (told, .documentStart :: rest) =>
          let node := Node.readUnless endsDocument node
          continued (content node ⟨rest, told ++ standardShorthands, []⟩)
        | _ => [broken]

def ofText (text : String) : List Document :=
  let tokens := Token.ofText text.toList
  ofTokens (tokens.length + 1) true tokens

end Document

end ActionRegistry.Yaml
