import Longform.Text.Basic

/-!
# The source of a YAML text

YAML gives meaning to the columns and lines of its text. Here each character is
paired with the place where it stands (`Spot`), and everything that reads YAML
works on lists of spots.

`map_char_locate`: locating a text keeps its characters.
-/

namespace Longform.Yaml

/-- Why a text is no YAML, or none that can be represented. -/
inductive Fault where
  | forbiddenCharacter
  | directive
  /-- A tab where only spaces may indent, or an entry where none may start. -/
  | indentation
  /-- A key without its colon, or a colon without its key. -/
  | key
  | unclosedQuote
  | escapeSequence
  | anchor
  | tag
  | blockHeader
  /-- A character that starts nothing. -/
  | strayCharacter
  /-- Something else was expected here. -/
  | unexpected
  | secondDocument
  | unknownAlias
  | tooDeep
  | tooManyAliases
  | duplicateKey
  /-- A scalar is not of the type its tag names. -/
  | wrongType
  | numberTooLarge
  deriving DecidableEq

/-- The wording of a fault. -/
def Fault.message : Fault → String
  | .forbiddenCharacter => "control characters are not allowed"
  | .directive => "malformed directive"
  | .indentation => "wrong indentation"
  | .key => "could not find expected ':'"
  | .unclosedQuote => "unclosed quoted scalar"
  | .escapeSequence => "unknown escape sequence"
  | .anchor => "malformed anchor or alias"
  | .tag => "malformed tag"
  | .blockHeader => "malformed head of a block scalar"
  | .strayCharacter => "found character that cannot start any token"
  | .unexpected => "did not find expected node content"
  | .secondDocument => "more than one document"
  | .unknownAlias => "unknown anchor"
  | .tooDeep => "recursion limit exceeded"
  | .tooManyAliases => "repetition limit exceeded"
  | .duplicateKey => "duplicate entry"
  | .wrongType => "invalid value for its tag"
  | .numberTooLarge => "integer out of range"

/-! ## Characters -/

/-- The characters that end a line. -/
def isBreak (c : Char) : Bool :=
  c == '\n' || c == '\r' || c == '\x85' || c == '\u2028' || c == '\u2029'

/-- The character that a line end is read as. -/
def normalBreak (c : Char) : Char :=
  if c == '\u2028' || c == '\u2029' then c else '\n'

/-- The characters of anchors, directives and tag handles. -/
def isWordChar (c : Char) : Bool := c.isAlphanum || c == '-' || c == '_'

/-- The characters a YAML text may hold. -/
def isPermitted (c : Char) : Bool :=
  let n := c.toNat
  n == 9 || n == 10 || n == 13 || (0x20 ≤ n && n ≤ 0x7E) || n == 0x85
    || (0xA0 ≤ n && n ≤ 0xFFFD) || 0x10000 ≤ n

/-! ## Places -/

/-- A character and where it stands. -/
structure Spot where
  char : Char
  line : Nat
  column : Nat
  offset : Nat

/-- What is left to read. -/
abbrev Source := List Spot

/-- Locates a text that begins at the given place. A carriage return and a line feed end one line
together. -/
def locateFrom (line column offset : Nat) : List Char → Source
  | [] => []
  | c :: cs =>
    let spot := ⟨c, line, column, offset⟩
    if isBreak c && !(c == '\r' && cs.head? == some '\n') then
      spot :: locateFrom (line + 1) 0 (offset + 1) cs
    else spot :: locateFrom line (column + 1) (offset + 1) cs

theorem map_char_locateFrom (line column offset : Nat) (cs : List Char) :
    (locateFrom line column offset cs).map Spot.char = cs := by
  induction cs generalizing line column offset with
  | nil => rfl
  | cons c cs ih =>
    simp only [locateFrom]
    split <;> simp [ih]

/-- Locates a text. -/
def locate (cs : List Char) : Source := locateFrom 0 0 0 cs

theorem map_char_locate (cs : List Char) : (locate cs).map Spot.char = cs :=
  map_char_locateFrom 0 0 0 cs

namespace Source

/-- Whether the next character is the given one. -/
def starts (c : Char) (src : Source) : Bool := src.head?.any (·.char == c)

/-- Whether a blank, a line end or the end of the text comes next. -/
def blankNext (src : Source) : Bool :=
  src.head?.all fun s => Text.isIndent s.char || isBreak s.char

/-- Whether a line end or the end of the text comes next. -/
def lineEnds (src : Source) : Bool := src.head?.all fun s => isBreak s.char

/-- Whether the first character of a line is the first of three equal marks that divide
documents. -/
def atDivider (mark : Char) (src : Source) : Bool :=
  match src with
  | a :: b :: c :: rest =>
    a.column == 0 && a.char == mark && b.char == mark && c.char == mark && blankNext rest
  | _ => false

/-- Whether documents are divided here. -/
def atAnyDivider (src : Source) : Bool := src.atDivider '-' || src.atDivider '.'

/-- What comes after one line end, if it comes next. -/
def dropBreak (src : Source) : Source :=
  match src with
  | a :: b :: rest =>
    if a.char == '\r' && b.char == '\n' then rest
    else if isBreak a.char then b :: rest
    else src
  | [a] => if isBreak a.char then [] else src
  | [] => []

/-- What comes after spaces and tabs. -/
def dropBlanks (src : Source) : Source := src.dropWhile (Text.isIndent ·.char)

/-- The characters up to the first that does not satisfy `p`, and what follows them. -/
def spanText (p : Char → Bool) (src : Source) : List Char × Source :=
  ((src.takeWhile (p ·.char)).map Spot.char, src.dropWhile (p ·.char))

end Source

end Longform.Yaml
