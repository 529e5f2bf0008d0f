import Longform.Yaml.Token

/-!
# The tokens of a YAML text

The indentation of a YAML text implies where block collections begin and end,
and a colon makes a key of what stands before it on its line. `Token.ofSource`
reads all tokens of a text and puts the implied ones into their places.
-/

namespace Longform.Yaml

/-! ## Possible keys -/

/-- A place where a key without a question mark may have begun. -/
structure KeyStart where
  /-- How many tokens come before it. -/
  place : Nat
  line : Nat
  column : Nat
  offset : Nat
  /-- At this indentation nothing but a key can stand. -/
  required : Bool

/-- The tokens read so far and what the next ones depend on. -/
structure Layout where
  /-- The tokens, latest first. -/
  tokens : List Token
  /-- The columns of the open block collections, innermost first. -/
  indents : List Nat
  /-- The possible key of the innermost collection. -/
  possible : Option KeyStart
  /-- The possible keys of the collections around the open flow collections. -/
  outer : List (Option KeyStart)
  /-- Whether a key may begin at the next token. -/
  mayStartKey : Bool

namespace Layout

def initial : Layout := ⟨[], [], none, [], true⟩

/-- Whether a flow collection is open. -/
def inFlow (l : Layout) : Bool := !l.outer.isEmpty

def push (l : Layout) (t : Token) : Layout := { l with tokens := t :: l.tokens }

/-- Puts a token at the place of an earlier one. -/
def insert (l : Layout) (place : Nat) (t : Token) : Layout :=
  { l with tokens := l.tokens.insertIdx (l.tokens.length - place) t }

/-- Gives up the possible key of the innermost collection. -/
def forgetKey (l : Layout) : Except Fault Layout :=
  if l.possible.any (·.required) then .error .key else .ok { l with possible := none }

/-- Notes that a key may begin here. -/
def noteKey (l : Layout) (s : Spot) : Except Fault Layout :=
  if !l.mayStartKey then .ok l
  else do
    let l ← l.forgetKey
    let required := !l.inFlow && l.indents.head? == some s.column
    .ok { l with possible := some ⟨l.tokens.length, s.line, s.column, s.offset, required⟩ }

/-- Whether a key that began earlier can no longer end here: keys stay on one line and are
short. -/
def isStale (s : Spot) (k : KeyStart) : Bool := k.line < s.line || k.offset + 1024 < s.offset

/-- Gives up the possible keys that have become too long. -/
def forgetStale (l : Layout) (s : Spot) : Except Fault Layout :=
  let stale := (l.possible :: l.outer).filterMap (Option.filter (isStale s))
  if stale.any (·.required) then .error .key
  else
    let drop (k : Option KeyStart) := k.filter fun k => !isStale s k
    .ok { l with possible := drop l.possible, outer := l.outer.map drop }

/-! ## Indentation -/

/-- Ends the block collections that stand to the right of a column. -/
def closeDeeper (l : Layout) (column : Option Nat) : Layout :=
  if l.inFlow then l
  else
    let closed := l.indents.takeWhile fun i => column.all (· < i)
    { l with
      tokens := closed.map (fun _ => Token.blockEnd) ++ l.tokens
      indents := l.indents.drop closed.length }

/-- Begins a block collection, unless one stands at this column or to the right of it already. -/
def openAt (l : Layout) (column place : Nat) (t : Token) : Layout :=
  if l.inFlow || !l.indents.head?.all (· < column) then l
  else { l.insert place t with indents := column :: l.indents }

/-! ## Indicators -/

/-- A token that no key can hold and after which none may begin on the same line. -/
def divide (l : Layout) (t : Token) : Except Fault Layout := do
  let l ← (l.closeDeeper none).forgetKey
  .ok { l.push t with mayStartKey := false }

/-- A token that begins a flow collection, which may be a key itself. -/
def openFlow (l : Layout) (s : Spot) (t : Token) : Except Fault Layout := do
  let l ← l.noteKey s
  .ok { l.push t with possible := none, outer := l.possible :: l.outer, mayStartKey := true }

def closeFlow (l : Layout) (t : Token) : Except Fault Layout := do
  let l ← l.forgetKey
  let l := l.push t
  .ok { l with possible := l.outer.head?.getD none, outer := l.outer.tail, mayStartKey := false }

def separator (l : Layout) : Except Fault Layout := do
  let l ← l.forgetKey
  .ok { l.push .separator with mayStartKey := true }

/-- The dash of a block sequence. -/
def entry (l : Layout) (s : Spot) : Except Fault Layout := do
  if !l.inFlow && !l.mayStartKey then throw .indentation
  let l ← (l.openAt s.column l.tokens.length .blockSequence).forgetKey
  .ok { l.push .entry with mayStartKey := true }

/-- The question mark before a key. -/
def key (l : Layout) (s : Spot) : Except Fault Layout := do
  if !l.inFlow && !l.mayStartKey then throw .key
  let l ← (l.openAt s.column l.tokens.length .blockMapping).forgetKey
  .ok { l.push .key with mayStartKey := !l.inFlow }

/-- The colon after a key. -/
def value (l : Layout) (s : Spot) : Except Fault Layout :=
  match l.possible with
  | some k =>
    let l := (l.insert k.place .key).openAt k.column k.place .blockMapping
    .ok { l.push .value with possible := none, mayStartKey := false }
  | none =>
    if !l.inFlow && !l.mayStartKey then .error .key
    else
      let l := l.openAt s.column l.tokens.length .blockMapping
      .ok { l.push .value with mayStartKey := !l.inFlow }

/-- A token that may be a key or begin one. -/
def content (l : Layout) (s : Spot) (t : Token) : Except Fault Layout := do
  let l ← l.noteKey s
  .ok { l.push t with mayStartKey := false }

/-! ## Reading -/

/-- Skips blanks, comments and line ends. Where a key may begin in a block, tabs do not count as
blanks; a line end allows a key in a block. -/
def skipBlanks (inFlow : Bool) :
    (mayStartKey inComment : Bool) → Source → Bool × Source
  | may, _, [] => (may, [])
  | may, inComment, s :: rest =>
    if isBreak s.char then skipBlanks inFlow (may || !inFlow) false rest
    else if inComment then skipBlanks inFlow may true rest
    else if s.char == ' ' || (s.char == '\t' && (inFlow || !may))
        || (s.char == '\uFEFF' && s.column == 0) then
      skipBlanks inFlow may false rest
    else if s.char == '#' then skipBlanks inFlow may true rest
    else (may, s :: rest)

/-- The characters that cannot begin a plain scalar. -/
def indicators : List Char := "-?:,[]\x7b\x7d#&*!|>'\"%@\u0060".toList

/-- Reads the token that begins at the given spot. -/
def token (l : Layout) (s : Spot) (rest : Source) : Except Fault (Layout × Source) := do
  let src : Source := s :: rest
  let indicator := rest.blankNext
  if s.column == 0 && s.char == '%' then
    let (t, rest) ← Token.directive rest
    return (← l.divide t, rest)
  if src.atDivider '-' then return (← l.divide .documentStart, rest.drop 2)
  if src.atDivider '.' then return (← l.divide .documentEnd, rest.drop 2)
  match s.char with
  | '[' => return (← l.openFlow s .flowSequence, rest)
  | '{' => return (← l.openFlow s .flowMapping, rest)
  | ']' => return (← l.closeFlow .flowSequenceEnd, rest)
  | '}' => return (← l.closeFlow .flowMappingEnd, rest)
  | ',' => return (← l.separator, rest)
  | '*' =>
    let (name, rest) ← Token.anchorName rest
    return (← l.content s (.alias name), rest)
  | '&' =>
    let (name, rest) ← Token.anchorName rest
    return (← l.content s (.anchor name), rest)
  | '!' =>
    let (t, rest) ← Token.readTag l.inFlow src
    return (← l.content s t, rest)
  | '\'' =>
    let (text, rest) ← singleQuoted rest
    return (← l.content s (.scalar false (String.ofList text)), rest)
  | '"' =>
    let (text, rest) ← doubleQuoted rest
    return (← l.content s (.scalar false (String.ofList text)), rest)
  | c =>
    if c == '-' && indicator then return (← l.entry s, rest)
    if c == '?' && (l.inFlow || indicator) then return (← l.key s, rest)
    if c == ':' && (l.inFlow || indicator) then return (← l.value s, rest)
    if (c == '|' || c == '>') && !l.inFlow then
      let l ← l.forgetKey
      let (text, rest) ← blockScalar (c == '|') l.indents.head? rest
      return ({ l.push (.scalar false (String.ofList text)) with mayStartKey := true }, rest)
    if c == '\t' then throw .strayCharacter
    if !indicators.contains c || c == '-' || ((c == '?' || c == ':') && !l.inFlow) then
      let p ← plain l.inFlow (l.indents.head?.elim 0 (· + 1)) src
      let l ← l.content s (.scalar true (String.ofList p.text))
      return ({ l with mayStartKey := l.mayStartKey || p.endsLine }, p.rest)
    throw .strayCharacter

/-- Reads on to the end of the text, one token per unit of fuel. -/
def readFrom : (fuel : Nat) → (l : Layout) → Source → Except Fault (List Token)
  | 0, _, _ => .error .unexpected
  | fuel + 1, l, src => do
    let (may, src) := skipBlanks l.inFlow l.mayStartKey false src
    match src with
    | [] =>
      let l ← (l.closeDeeper none).forgetKey
      .ok l.tokens.reverse
    | s :: rest =>
      let l ← { l with mayStartKey := may }.forgetStale s
      let (l, rest) ← (l.closeDeeper (some s.column)).token s rest
      readFrom fuel l rest

end Layout

/-- The tokens of a YAML text. A byte order mark at its beginning is left out. -/
def Token.ofText (text : List Char) : Except Fault (List Token) :=
  let text := if text.head? == some '\uFEFF' then text.drop 1 else text
  if !text.all isPermitted then .error .forbiddenCharacter
  else Layout.readFrom (text.length + 1) .initial (locate text)

end Longform.Yaml
