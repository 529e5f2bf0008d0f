import Longform.Yaml.Layout

/-!
# YAML nodes

The tree of a YAML document. `Document.ofTokens` reads it from tokens. Aliases
stay in the tree: an alias holds the number of its anchor, and the document says
which node each number stands for.
-/

namespace Longform.Yaml

/-- A node of a YAML document. A tag is given in full, without its handle. -/
inductive Node where
  | scalar (tag : Option String) (isPlain : Bool) (text : String)
  | sequence (tag : Option String) (items : List Node)
  | mapping (tag : Option String) (entries : List (Node × Node))
  | alias (number : Nat)
  deriving Inhabited

/-- What is written where a node is left out. -/
def Node.absent : Node := .scalar none true ""

/-- A node with an anchor. -/
structure Anchored where
  number : Nat
  /-- How many nodes begin before it. -/
  start : Nat
  node : Node

/-- A YAML document. -/
structure Document where
  root : Node
  anchored : List Anchored
  /-- How many events it takes to tell the document: one for a scalar or alias, two for a
  collection. -/
  size : Nat

/-- The state of a reader of nodes. -/
structure Composing where
  tokens : List Token
  /-- The meanings of tag handles. -/
  handles : List (String × String)
  /-- The numbers of the anchor names in use. -/
  names : List (String × Nat)
  anchored : List Anchored
  size : Nat

namespace Composing

/-- A reader of nodes. -/
abbrev Reader := StateT Composing (Except Fault)

/-! ## Tokens -/

/-- Whether the next token is the given one. -/
def nextIs (t : Token) : Reader Bool := do return (← get).tokens.head? == some t

/-- Whether the next token is one of the given ones. -/
def nextIn (ts : List Token) : Reader Bool := do return (← get).tokens.head?.any (ts.contains ·)

def drop : Reader Unit := modify fun c => { c with tokens := c.tokens.tail }

/-- Takes the next token if it is the given one. -/
def take? (t : Token) : Reader Bool := do
  if ← nextIs t then
    drop
    return true
  return false

def count (events : Nat) : Reader Unit := modify fun c => { c with size := c.size + events }

/-- A node that is left out. -/
def absent : Reader Node := do
  count 1
  return .absent

/-! ## Properties -/

/-- The properties before a node. -/
structure Properties where
  anchor : Option String
  tag : Option String

/-- The tag that a handle and a suffix stand for. -/
def resolveTag (handle suffix : String) : Reader String := do
  if handle.isEmpty then return suffix
  match (← get).handles.lookup handle with
  | some meaning => return meaning ++ suffix
  | none => throw .tag

def anchor? : Reader (Option String) := do
  match (← get).tokens with
  | .anchor name :: _ =>
    drop
    return some name
  | _ => return none

def tag? : Reader (Option String) := do
  match (← get).tokens with
  | .tag handle suffix :: _ =>
    drop
    return some (← resolveTag handle suffix)
  | _ => return none

/-- Reads an anchor and a tag in any order. -/
def properties : Reader Properties := do
  match ← anchor? with
  | some anchor => return ⟨some anchor, ← tag?⟩
  | none =>
    match ← tag? with
    | some tag => return ⟨← anchor?, some tag⟩
    | none => return ⟨none, none⟩

/-- Gives an anchor its number: how many names are in use. A later anchor of the same number takes
the place of an earlier one. -/
def number? (anchor : Option String) : Reader (Option Nat) := do
  match anchor with
  | none => return none
  | some name =>
    let c ← get
    let n := c.names.length
    set { c with names := (name, n) :: c.names.filter (·.1 != name) }
    return some n

/-- Notes which node an anchor stands for. -/
def note (number : Option Nat) (start : Nat) (node : Node) : Reader Node := do
  match number with
  | none => return node
  | some n =>
    modify fun c => { c with anchored := ⟨n, start, node⟩ :: c.anchored }
    return node

/-- Reads a collection after its properties. -/
def collection (p : Properties) (read : Reader Node) : Reader Node := do
  let number ← number? p.anchor
  let start := (← get).size
  count 2
  note number start (← read)

/-- Reads a node of one event after its properties. -/
def leaf (p : Properties) (node : Node) : Reader Node := do
  let number ← number? p.anchor
  let start := (← get).size
  count 1
  note number start node

/-- Reads an alias after its name. -/
def aliasTo (name : String) : Reader Node := do
  count 1
  match (← get).names.lookup name with
  | some n => return .alias n
  | none => throw .unknownAlias

/-! ## Nodes -/

mutual

/-- Reads a node. A block collection may begin only where `block` says so, and a sequence at the
column of its mapping only where `inMapping` does. -/
def node : (fuel : Nat) → (block inMapping : Bool) → Reader Node
  | 0, _, _ => throw .tooDeep
  | fuel + 1, block, inMapping => do
    if let .alias name :: _ := (← get).tokens then
      drop
      return ← aliasTo name
    let p ← properties
    match (← get).tokens, block, inMapping with
    | .entry :: _, _, true => collection p do return .sequence p.tag (← looseItems fuel)
    | .scalar isPlain text :: _, _, _ =>
      drop
      leaf p (.scalar (p.tag.filter (· != "!")) isPlain text)
    | .flowSequence :: _, _, _ =>
      drop
      collection p do return .sequence p.tag (← flowItems fuel true)
    | .flowMapping :: _, _, _ =>
      drop
      collection p do return .mapping p.tag (← flowEntries fuel true)
    | .blockSequence :: _, true, _ =>
      drop
      collection p do return .sequence p.tag (← blockItems fuel)
    | .blockMapping :: _, true, _ =>
      drop
      collection p do return .mapping p.tag (← blockEntries fuel)
    | _, _, _ =>
      if p.anchor.isNone && p.tag.isNone then throw .unexpected
      leaf p (.scalar p.tag true "")

/-- Reads a node, unless one of the given tokens shows that it is left out. -/
def nodeUnless : (fuel : Nat) → (ends : List Token) → (block inMapping : Bool) → Reader Node
  | 0, _, _, _ => throw .tooDeep
  | fuel + 1, ends, block, inMapping => do
    if ← nextIn ends then absent else node fuel block inMapping

/-- Reads the items of a block sequence. -/
def blockItems : (fuel : Nat) → Reader (List Node)
  | 0 => throw .tooDeep
  | fuel + 1 => do
    if ← take? .entry then
      let item ← nodeUnless fuel [.entry, .blockEnd] true false
      return item :: (← blockItems fuel)
    if ← take? .blockEnd then return []
    throw .unexpected

/-- Reads the items of a sequence that stands at the column of its mapping. -/
def looseItems : (fuel : Nat) → Reader (List Node)
  | 0 => throw .tooDeep
  | fuel + 1 => do
    if ← take? .entry then
      let item ← nodeUnless fuel [.entry, .key, .value, .blockEnd] true false
      return item :: (← looseItems fuel)
    return []

/-- Reads the entries of a block mapping. -/
def blockEntries : (fuel : Nat) → Reader (List (Node × Node))
  | 0 => throw .tooDeep
  | fuel + 1 => do
    if ← take? .key then
      let key ← nodeUnless fuel [.key, .value, .blockEnd] true true
      let value ← valueUnless fuel [.key, .value, .blockEnd] true
      return (key, value) :: (← blockEntries fuel)
    if ← take? .blockEnd then return []
    throw .unexpected

/-- Reads the value of an entry, which may be left out with or without its colon. -/
def valueUnless : (fuel : Nat) → (ends : List Token) → (block : Bool) → Reader Node
  | 0, _, _ => throw .tooDeep
  | fuel + 1, ends, block => do
    if ← take? .value then nodeUnless fuel ends block block else absent

/-- Reads the items of a flow sequence. An item may be an entry, which stands for a mapping of its
own. -/
def flowItems : (fuel : Nat) → (first : Bool) → Reader (List Node)
  | 0, _ => throw .tooDeep
  | fuel + 1, first => do
    if ← take? .flowSequenceEnd then return []
    if !first then
      if !(← take? .separator) then throw .unexpected
    if ← take? .key then
      count 2
      let key ← if ← nextIn [.value, .separator, .flowSequenceEnd] then do
          drop
          absent
        else node fuel false false
      let value ← valueUnless fuel [.separator, .flowSequenceEnd] false
      return .mapping none [(key, value)] :: (← flowItems fuel false)
    if ← take? .flowSequenceEnd then return []
    let item ← node fuel false false
    return item :: (← flowItems fuel false)

/-- Reads the entries of a flow mapping. -/
def flowEntries : (fuel : Nat) → (first : Bool) → Reader (List (Node × Node))
  | 0, _ => throw .tooDeep
  | fuel + 1, first => do
    if ← take? .flowMappingEnd then return []
    if !first then
      if !(← take? .separator) then throw .unexpected
    if ← take? .key then
      let key ← nodeUnless fuel [.value, .separator, .flowMappingEnd] false false
      let value ← valueUnless fuel [.separator, .flowMappingEnd] false
      return (key, value) :: (← flowEntries fuel false)
    if ← take? .flowMappingEnd then return []
    let key ← node fuel false false
    return (key, ← absent) :: (← flowEntries fuel false)

end

/-! ## Documents -/

/-- Takes the directives in front of a document. Each kind of directive may be given once for the
same thing. -/
def directives : (fuel : Nat) → (sawVersion : Bool) → (handles : List (String × String)) →
    Reader (List (String × String))
  | 0, _, handles => return handles
  | fuel + 1, sawVersion, handles => do
    match (← get).tokens with
    | .version major minor :: _ =>
      drop
      if sawVersion || major != 1 || (minor != 1 && minor != 2) then throw .directive
      directives fuel true handles
    | .shorthand handle meaning :: _ =>
      drop
      if (handles.lookup handle).isSome then throw .directive
      directives fuel sawVersion ((handle, meaning) :: handles)
    | _ => return handles

/-- The handles that need no directive. -/
def standardHandles : List (String × String) := [("!", "!"), ("!!", "tag:yaml.org,2002:")]

/-- Whether the next token divides documents. -/
def atDivision : Reader Bool := do
  match (← get).tokens with
  | [] | .version _ _ :: _ | .shorthand _ _ :: _ | .documentStart :: _ | .documentEnd :: _ =>
    return true
  | _ => return false

/-- Reads the content of a document. Only after three dashes may it be left out, and only before
them may directives stand. -/
def root (fuel : Nat) : Reader Node := do
  let before := (← get).tokens.length
  let given ← directives fuel false []
  modify fun c => { c with handles := given ++ standardHandles }
  if ← take? .documentStart then
    if ← atDivision then absent else node fuel true false
  else if (← get).tokens.length = before then
    if (← get).tokens.isEmpty then absent else node fuel true false
  else throw .directive

end Composing

/-- The document of a list of tokens. There may be no more than one. -/
def Document.ofTokens (tokens : List Token) : Except Fault Document := do
  let fuel := 4 * tokens.length + 4
  let (root, c) ← (Composing.root fuel).run ⟨tokens, [], [], [], 0⟩
  if (c.tokens.dropWhile (· == .documentEnd)).isEmpty then .ok ⟨root, c.anchored, c.size⟩
  else .error .secondDocument

end Longform.Yaml
