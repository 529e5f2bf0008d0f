import Longform.Pattern.Escape
import Longform.Text.Alphanumeric

/-!
# Search patterns

Regular expressions, as far as it matters whether a text is one. `Pattern.read`
reads the form of a pattern: how its parts are nested and repeated. A pattern is
refused when it is malformed, nested too deeply or too large.
-/

namespace Longform

/-- The form of a pattern. -/
inductive Pattern where
  | empty
  /-- A change of the way in which the rest is read. -/
  | setting
  | atom
  /-- A class of characters between brackets that are nested as deeply as given. -/
  | oneOf (depth : Nat)
  /-- A part that is repeated. The count is how often it must or may occur, if that is limited. -/
  | repeated (inner : Pattern) (count : Nat)
  | group (inner : Pattern)
  | sequence (parts : List Pattern)
  | choice (branches : List Pattern)
  deriving Inhabited

namespace Pattern

open Text

/-! ## Size -/

mutual

/-- How deeply a pattern is nested. -/
def depth : Pattern → Nat
  | .oneOf depth => depth
  | .repeated inner _ => inner.depth + 1
  | .group inner => inner.depth + 1
  | .sequence parts => depths parts + 1
  | .choice branches => depths branches + 1
  | _ => 0

def depths : List Pattern → Nat
  | [] => 0
  | p :: more => max p.depth (depths more)

end

mutual

/-- How many parts a pattern has when each repetition is written out. -/
def size : Pattern → Nat
  | .repeated inner count => inner.size * count + 1
  | .group inner => inner.size + 2
  | .sequence parts => sizes parts
  | .choice branches => sizes branches + 1
  | _ => 1

def sizes : List Pattern → Nat
  | [] => 0
  | p :: more => p.size + sizes more

end

/-- Joins parts that follow each other. -/
def ofParts : List Pattern → Pattern
  | [] => .empty
  | [p] => p
  | parts => .sequence parts

/-- Joins branches of which one is to match. -/
def ofBranches : List Pattern → Pattern
  | [p] => p
  | branches => .choice branches

/-! ## Classes between brackets -/

/-- How deeply items that stand beside each other are nested. -/
def besides : List Nat → Nat
  | [] => 0
  | [n] => n
  | depths => depths.foldl max 0 + 1

/-- How deeply an operation on two classes is nested. There may be no left side yet. -/
def combined (left : Option Nat) (right : Nat) : Nat :=
  left.elim right fun n => max n right + 1

/-- Reads the name of a class between `[:` and `:]`. -/
def cutNamedClass? (s : List Char) : Option (List Char) := do
  let s ← after? ['[', ':'] s
  let (name, rest) ← cut? [':', ']'] ((after? ['^'] s).getD s)
  if ["alnum", "alpha", "ascii", "blank", "cntrl", "digit", "graph", "lower", "print", "punct",
      "space", "upper", "word", "xdigit"].contains (String.ofList name) then some rest else none

/-- Reads an element of a class. -/
def cutItem? (spaced : Bool) : List Char → Option (Atom × List Char)
  | [] => none
  | '\\' :: rest => cutEscape? spaced rest
  | c :: rest => some (.char c, rest)

/-- Reads an element of a class or a range of characters. -/
def cutRange? (spaced : Bool) (s : List Char) : Option (List Char) := do
  let (first, rest) ← cutItem? spaced s
  let alone (rest : List Char) : Option (List Char) :=
    match first with
    | .place => none
    | _ => some rest
  match skip spaced rest with
  | '-' :: more =>
    let next := skip spaced more
    if next.head? = some ']' ∨ next.head? = some '-' then alone ('-' :: more)
    else match first, ← cutItem? spaced next with
      | .char a, (.char b, rest) => if a ≤ b then some rest else none
      | _, _ => none
  | rest => alone rest

/-- The two signs of an operation on classes. -/
def afterOperator? (s : List Char) : Option (List Char) :=
  (after? ['&', '&'] s).or ((after? ['-', '-'] s).or (after? ['~', '~'] s))

/-- Reads the items of a class up to its closing bracket and says how deeply they are nested.
`inner` reads a class after its opening bracket. -/
def cutItems? (spaced : Bool) (inner : List Char → Option (Nat × List Char)) (left : Option Nat)
    (items : List Nat) (s : List Char) : Option (Nat × List Char) :=
  let go (left : Option Nat) (items : List Nat) (rest : List Char) : Option (Nat × List Char) :=
    if rest.length < s.length then cutItems? spaced inner left items rest else none
  let start := skip spaced s
  match start with
  | [] => none
  | ']' :: rest => some (combined left (besides items), rest)
  | '[' :: rest =>
    match cutNamedClass? start with
    | some rest => go left (0 :: items) rest
    | none => do
      let (depth, rest) ← inner rest
      go left (depth :: items) rest
  | start =>
    match afterOperator? start with
    | some rest => go (some (combined left (besides items))) [] rest
    | none => do go left (0 :: items) (← cutRange? spaced start)
termination_by s.length

/-- Reads a class after its opening bracket. Hyphens and a closing bracket at its beginning stand
for themselves. -/
def cutSet? (spaced : Bool) : (fuel : Nat) → List Char → Option (Nat × List Char)
  | 0, _ => none
  | fuel + 1, s =>
    let s := skip spaced s
    let s := ((after? ['^'] s).map (skip spaced)).getD s
    let isHyphen (c : Char) : Bool := c == '-' || (spaced && isBlank c)
    let hyphens := (s.takeWhile isHyphen).filter (· == '-')
    let s := if hyphens.isEmpty then s else s.dropWhile isHyphen
    let (items, s) := match s with
      | ']' :: rest => if hyphens.isEmpty then ([0], rest) else (hyphens.map fun _ => 0, s)
      | s => (hyphens.map fun _ => 0, s)
    (cutItems? spaced (cutSet? spaced fuel) none items s).map fun (depth, rest) => (depth + 1, rest)

/-! ## Repetitions -/

/-- Reads a count, with blanks around it. -/
def cutCount? (s : List Char) : Option (Nat × List Char) :=
  let s := s.dropWhile isBlank
  let digits := s.takeWhile Char.isDigit
  if digits.isEmpty || wordSize 32 ≤ ofDigits digits then none
  else some (ofDigits digits, (s.dropWhile Char.isDigit).dropWhile isBlank)

/-- Reads the counts of a repetition after the opening brace, and says how often the part may
occur. -/
def cutCounts? (spaced : Bool) (s : List Char) : Option (Nat × List Char) := do
  let (least, rest) ← cutCount? (skip spaced s)
  match rest with
  | '\x7d' :: rest => some (least, rest)
  | ',' :: rest =>
    match skip spaced rest with
    | '\x7d' :: rest => some (max 1 least, rest)
    | rest => do
      let (most, rest) ← cutCount? rest
      if least ≤ most then some (most, ← after? ['\x7d'] rest) else none
  | _ => none

/-- Reads the sign of a repetition and says how often the part may occur. -/
def cutRepetition? (spaced : Bool) (s : List Char) : Option (Nat × List Char) := do
  let (count, rest) ← match s with
    | '\x7b' :: rest => (cutCounts? spaced rest).map fun (n, rest) => (n, skip spaced rest)
    | _ :: rest => some (1, rest)
    | [] => none
  some (count, (after? ['?'] rest).getD rest)

/-! ## Groups -/

/-- The settings that letters after a question mark change. -/
structure Flags where
  letters : List Char
  negated : List Char

/-- Reads letters up to a colon or a closing parenthesis. No letter and no hyphen occurs twice, and
a hyphen is not the last. -/
def cutFlags? (s : List Char) : Option (Flags × List Char) :=
  let isEnd (c : Char) : Bool := c == ':' || c == ')'
  let text := s.takeWhile (!isEnd ·)
  let (letters, negated) := (cut? ['-'] text).getD (text, [])
  let isFlag (c : Char) : Bool := "imsUuxR".contains c
  if text.all (fun c => isFlag c || c == '-') && text.eraseDups.length == text.length
      && text.getLast? != some '-' then
    some (⟨letters, negated⟩, s.dropWhile (!isEnd ·))
  else none

/-- Whether blanks count after a change of the settings. -/
def Flags.spaced (f : Flags) (before : Bool) : Bool :=
  (before || f.letters.contains 'x') && !f.negated.contains 'x'

/-- Whether a character may stand in the name of a group. -/
def isNameChar (isFirst : Bool) (c : Char) : Bool :=
  c == '_' || (isAlphanumeric c && !(isFirst && c.isDigit))
    || (!isFirst && ['.', '[', ']'].contains c)

/-- Reads the name of a group up to the sign that ends it. -/
def cutName? (s : List Char) : Option (List Char × List Char) :=
  match cut? ['>'] s with
  | some (c :: name, rest) =>
    if isNameChar true c && name.all (isNameChar false) then some (c :: name, rest) else none
  | _ => none

/-- What the opening of a group says. -/
inductive Opening where
  | group (name : Option (List Char)) (spaced : Bool)
  /-- No group, but a change of the settings. -/
  | setting (spaced : Bool)

/-- Reads the opening of a group after its parenthesis. -/
def cutOpening? (spaced : Bool) (s : List Char) : Option (Opening × List Char) :=
  let s := skip spaced s
  match s with
  | '?' :: rest =>
    if ["?=", "?!", "?<=", "?<!"].any fun look => (after? look.toList s).isSome then none
    else match (after? ['P', '<'] rest).or (after? ['<'] rest) with
      | some rest => (cutName? rest).map fun (name, rest) => (.group (some name) spaced, rest)
      | none => do
        let (flags, rest) ← cutFlags? rest
        match rest with
        | ':' :: rest => some (.group none (flags.spaced spaced), rest)
        | ')' :: rest =>
          if flags.letters.isEmpty && flags.negated.isEmpty then none
          else some (.setting (flags.spaced spaced), rest)
        | _ => none
  | s => some (.group none spaced, s)

/-! ## Patterns -/

/-- How far a pattern has been read. -/
structure Draft where
  /-- The names of groups so far. -/
  names : List (List Char)
  /-- Whether blanks do not count. -/
  spaced : Bool
  /-- The branches that are complete, last first. -/
  branches : List Pattern
  /-- The parts of the branch that is being read, last first. -/
  parts : List Pattern

namespace Draft

def add (d : Draft) (p : Pattern) : Draft := { d with parts := p :: d.parts }

def branch (d : Draft) : Pattern := ofParts d.parts.reverse

/-- What has been read. -/
def pattern (d : Draft) : Pattern := ofBranches (d.branch :: d.branches).reverse

/-- Repeats the last part, which must be one that matches something. -/
def repeatLast? (d : Draft) (count : Nat) : Option Draft :=
  match d.parts with
  | [] => none
  | .setting :: _ => none
  | .empty :: _ => none
  | p :: more => some { d with parts := .repeated p count :: more }

/-- A draft of what is in a group. -/
def inside (d : Draft) (name : Option (List Char)) (spaced : Bool) : Option Draft :=
  if name.any d.names.contains then none else some ⟨name.toList ++ d.names, spaced, [], []⟩

end Draft

/-- How deeply a pattern may be nested. -/
def maxDepth : Nat := 250

/-- How many parts a pattern may have. -/
def maxSize : Nat := 327680

/-- Reads an element that is no group and no repetition. -/
def cutElement? (spaced : Bool) : List Char → Option (Pattern × List Char)
  | [] => none
  | '[' :: rest => (cutSet? spaced maxDepth rest).map fun (depth, rest) => (.oneOf depth, rest)
  | '\\' :: rest => (cutEscape? spaced rest).map fun (_, rest) => (.atom, rest)
  | _ :: rest => some (.atom, rest)

/-- Reads a pattern up to its end or to the parenthesis that closes the group it is in. `inner`
reads what is in a group. -/
def cutPattern? (inner : Draft → List Char → Option (Draft × List Char)) (d : Draft)
    (s : List Char) : Option (Draft × List Char) :=
  let go (d : Draft) (rest : List Char) : Option (Draft × List Char) :=
    if rest.length < s.length then cutPattern? inner d rest else none
  match skip d.spaced s with
  | [] => some (d, [])
  | ')' :: rest => some (d, ')' :: rest)
  | '|' :: rest => go { d with branches := d.branch :: d.branches, parts := [] } rest
  | '(' :: rest => do
    match ← cutOpening? d.spaced rest with
    | (Opening.setting spaced, rest) => go { d.add .setting with spaced } rest
    | (Opening.group name spaced, rest) => do
      let (held, rest) ← inner (← d.inside name spaced) rest
      go { d.add (.group held.pattern) with names := held.names } (← after? [')'] rest)
  | c :: rest =>
    if "?*+\x7b".contains c then do
      let (count, rest) ← cutRepetition? d.spaced (c :: rest)
      go (← d.repeatLast? count) rest
    else do
      let (element, rest) ← cutElement? d.spaced (c :: rest)
      go (d.add element) rest
termination_by s.length

/-- Reads what is in a group that lies in groups nested at most `fuel` times. -/
def cutGroup? : (fuel : Nat) → Draft → List Char → Option (Draft × List Char)
  | 0, _, _ => none
  | fuel + 1, d, s => cutPattern? (cutGroup? fuel) d s

/-- Reads a pattern. -/
def read (text : String) : Option Pattern := do
  let (d, rest) ← cutGroup? (maxDepth + 1) ⟨[], false, [], []⟩ text.toList
  let p := d.pattern
  if rest.isEmpty && p.depth ≤ maxDepth && p.size ≤ maxSize then some p else none

end Pattern

end Longform
