import Longform.Text.Hex
import Longform.Yaml.Source

/-!
# The text of YAML scalars

Plain, quoted and block scalars. In the first two a line end stands for a space
and blank lines for line ends; a `Gap` is what has been read between two words.
Block scalars keep their lines (`|`) or fold them (`>`).
-/

namespace Longform.Yaml

open Text

/-! ## Folding -/

/-- The blanks and line ends between two words of a scalar, latest first. -/
inductive Gap where
  | none
  | blanks (chars : List Char)
  /-- The first line end, unless it was escaped, and the further ones. -/
  | lines (first : Option Char) (more : List Char)

namespace Gap

/-- Blanks count only before the first line end. -/
def addBlank (c : Char) : Gap → Gap
  | .none => .blanks [c]
  | .blanks chars => .blanks (c :: chars)
  | .lines first more => .lines first more

def addBreak (c : Char) : Gap → Gap
  | .none => .lines (normalBreak c) []
  | .blanks _ => .lines (normalBreak c) []
  | .lines first more => .lines first (normalBreak c :: more)

/-- What a gap stands for, last character first. -/
def reversedText : Gap → List Char
  | .none => []
  | .blanks chars => chars
  | .lines (some '\n') [] => [' ']
  | .lines (some '\n') more => more
  | .lines first more => more ++ first.toList

def isEmpty : Gap → Bool
  | .none => true
  | _ => false

def hasLines : Gap → Bool
  | .lines _ _ => true
  | _ => false

end Gap

/-- Whether a carriage return is the first half of a line end. -/
def isHalfBreak (s : Spot) (rest : Source) : Bool := s.char == '\r' && rest.starts '\n'

/-! ## Plain scalars -/

/-- A plain scalar as it has been read. -/
structure PlainText where
  text : List Char
  /-- The blanks after the scalar reach into another line. -/
  endsLine : Bool
  rest : Source

/-- Whether a plain scalar ends before the given character. -/
def endsPlain (inFlow : Bool) (indent : Nat) (gap : Gap) (s : Spot) (rest : Source) : Bool :=
  (!gap.isEmpty && ((!inFlow && s.column < indent) || Source.atAnyDivider (s :: rest)
      || s.char == '#'))
    || (s.char == ':' && rest.blankNext)
    || (inFlow && [',', '[', ']', '{', '}'].contains s.char)

/-- Reads on in a plain scalar whose lines are indented by at least `indent`. `text` is what has
been read, last character first. -/
def plainFrom (inFlow : Bool) (indent : Nat) :
    (gap : Gap) → (text : List Char) → Source → Except Fault PlainText
  | gap, text, [] => .ok ⟨text.reverse, gap.hasLines, []⟩
  | gap, text, s :: rest =>
    if isIndent s.char then
      if gap.hasLines && s.char == '\t' && s.column < indent then .error .indentation
      else plainFrom inFlow indent (gap.addBlank s.char) text rest
    else if isHalfBreak s rest then plainFrom inFlow indent gap text rest
    else if isBreak s.char then plainFrom inFlow indent (gap.addBreak s.char) text rest
    else if endsPlain inFlow indent gap s rest then .ok ⟨text.reverse, gap.hasLines, s :: rest⟩
    else if inFlow && s.char == ':'
        && rest.head?.any fun n => [',', '?', '[', ']', '{', '}'].contains n.char then
      .error .key
    else plainFrom inFlow indent .none (s.char :: gap.reversedText ++ text) rest

/-- Reads a plain scalar. -/
def plain (inFlow : Bool) (indent : Nat) (src : Source) : Except Fault PlainText :=
  plainFrom inFlow indent .none [] src

/-! ## Quoted scalars -/

/-- Reads on in a scalar between single quotes, in which a quote is written twice. -/
def singleQuotedFrom :
    (gap : Gap) → (text : List Char) → Source → Except Fault (List Char × Source)
  | _, _, [] => .error .unclosedQuote
  | gap, text, s :: rest =>
    if isIndent s.char then singleQuotedFrom (gap.addBlank s.char) text rest
    else if isHalfBreak s rest then singleQuotedFrom gap text rest
    else if isBreak s.char then singleQuotedFrom (gap.addBreak s.char) text rest
    else if gap.hasLines && Source.atAnyDivider (s :: rest) then .error .unclosedQuote
    else
      let text := gap.reversedText ++ text
      if s.char == '\'' then
        match rest with
        | [] => .ok (text.reverse, [])
        | n :: more =>
          if n.char == '\'' then singleQuotedFrom .none ('\'' :: text) more
          else .ok (text.reverse, n :: more)
      else singleQuotedFrom .none (s.char :: text) rest

/-- Reads a scalar after its opening single quote. -/
def singleQuoted (src : Source) : Except Fault (List Char × Source) :=
  singleQuotedFrom .none [] src

/-- The character that a backslash and a letter stand for. -/
def escapedChar? : Char → Option Char
  | '0' => some '\x00'
  | 'a' => some '\x07'
  | 'b' => some '\x08'
  | 't' | '\t' => some '\t'
  | 'n' => some '\n'
  | 'v' => some '\x0b'
  | 'f' => some '\x0c'
  | 'r' => some '\r'
  | 'e' => some '\x1b'
  | ' ' => some ' '
  | '"' => some '"'
  | '/' => some '/'
  | '\\' => some '\\'
  | 'N' => some '\x85'
  | '_' => some '\xa0'
  | 'L' => some '\u2028'
  | 'P' => some '\u2029'
  | _ => none

/-- The number of hexadecimal digits after a backslash and a letter. -/
def escapeWidth? : Char → Option Nat
  | 'x' => some 2
  | 'u' => some 4
  | 'U' => some 8
  | _ => none

/-- Reads what follows a backslash: the character meant and how many characters it took. -/
def escapeSequence? (src : Source) : Option (Char × Nat) := do
  let s ← src.head?
  match escapeWidth? s.char with
  | none => (escapedChar? s.char).map (·, 1)
  | some width =>
    let digits := (src.drop 1).take width
    if digits.length < width then none
    else (charOf? (← digits? 16 (digits.map Spot.char))).map (·, width + 1)

/-- Reads on in a scalar between double quotes. A backslash at the end of a line joins it with the
next one. -/
def doubleQuotedFrom (gap : Gap) (text : List Char) (src : Source) :
    Except Fault (List Char × Source) :=
  match src with
  | [] => .error .unclosedQuote
  | s :: rest =>
    if isIndent s.char then doubleQuotedFrom (gap.addBlank s.char) text rest
    else if isHalfBreak s rest then doubleQuotedFrom gap text rest
    else if isBreak s.char then doubleQuotedFrom (gap.addBreak s.char) text rest
    else if gap.hasLines && Source.atAnyDivider (s :: rest) then .error .unclosedQuote
    else
      let text := gap.reversedText ++ text
      if s.char == '"' then .ok (text.reverse, rest)
      else if s.char == '\\' then
        match rest with
        | [] => .error .escapeSequence
        | n :: more =>
          if isHalfBreak n more then doubleQuotedFrom (.lines none []) text (more.drop 1)
          else if isBreak n.char then doubleQuotedFrom (.lines none []) text more
          else match escapeSequence? (n :: more) with
            | none => .error .escapeSequence
            | some (c, width) => doubleQuotedFrom .none (c :: text) (more.drop (width - 1))
      else doubleQuotedFrom .none (s.char :: text) rest
termination_by src.length
decreasing_by all_goals (simp only [List.length_cons, List.length_drop]; omega)

/-- Reads a scalar after its opening double quote. -/
def doubleQuoted (src : Source) : Except Fault (List Char × Source) :=
  doubleQuotedFrom .none [] src

/-! ## Block scalars -/

/-- What becomes of the line ends at the end of a block scalar. -/
inductive Chomping where
  | strip
  | clip
  | keep

/-- A block scalar as far as it has been read. -/
structure BlockText where
  /-- The column of its lines, once it is known. -/
  indent : Option Nat
  /-- The widest indentation seen so far. -/
  widest : Nat
  /-- What has been read, last character first. -/
  text : List Char
  /-- The end of the last line that is not blank. -/
  lead : Option Char
  /-- The ends of blank lines since then, latest first. -/
  more : List Char
  /-- The last line that is not blank began with a blank. -/
  indented : Bool
  /-- The indentation of the current line has been read. -/
  inLine : Bool

namespace BlockText

/-- The column at which the lines stand, found from the first line that is not blank. -/
def settle (b : BlockText) (least : Nat) : Nat := b.indent.getD (max (max b.widest least) 1)

/-- Starts a line with the given character. A folded scalar joins two lines that do not begin with
blanks. -/
def startLine (b : BlockText) (literal : Bool) (indent : Nat) (c : Char) : BlockText :=
  let blank := isIndent c
  let joined := !literal && b.lead == some '\n' && !b.indented && !blank
  let between :=
    if joined then (if b.more.isEmpty then [' '] else b.more) else b.more ++ b.lead.toList
  { b with
    indent, text := c :: between ++ b.text, lead := none, more := [], indented := blank
    inLine := true }

/-- The text of a block scalar that has been read to its end. -/
def finish (b : BlockText) : Chomping → List Char
  | .strip => b.text.reverse
  | .clip => (b.lead.toList ++ b.text).reverse
  | .keep => (b.more ++ b.lead.toList ++ b.text).reverse

end BlockText

/-- Reads on in a block scalar whose lines stand at least at the column `least`. -/
def blockFrom (literal : Bool) (least : Nat) :
    (b : BlockText) → Source → Except Fault (BlockText × Source)
  | b, [] => .ok (b, [])
  | b, s :: rest =>
    let inMargin := b.indent.all (s.column < ·)
    if isHalfBreak s rest then blockFrom literal least b rest
    else if b.inLine then
      if isBreak s.char then
        blockFrom literal least { b with inLine := false, lead := normalBreak s.char } rest
      else blockFrom literal least { b with text := s.char :: b.text } rest
    else if inMargin && s.char == ' ' then
      blockFrom literal least { b with widest := max b.widest (s.column + 1) } rest
    else if inMargin && s.char == '\t' then .error .indentation
    else if isBreak s.char then
      blockFrom literal least { b with more := normalBreak s.char :: b.more } rest
    else if s.column == b.settle least then
      blockFrom literal least (b.startLine literal (b.settle least) s.char) rest
    else .ok (b, s :: rest)

/-- The marks after `|` or `>`: the chomping, the indentation and what follows. -/
def blockHeader (src : Source) : Except Fault (Chomping × Option Nat × Source) :=
  let chomping (src : Source) : Option Chomping × Source :=
    if src.starts '+' then (some .keep, src.drop 1)
    else if src.starts '-' then (some .strip, src.drop 1)
    else (none, src)
  let indentation (src : Source) : Except Fault (Option Nat × Source) :=
    match src.head? with
    | none => .ok (none, src)
    | some s =>
      if s.char == '0' then .error .blockHeader
      else if s.char.isDigit then .ok (some (s.char.toNat - '0'.toNat), src.drop 1)
      else .ok (none, src)
  match chomping src with
  | (some c, src) => do
    let (width, src) ← indentation src
    .ok (c, width, src)
  | (none, src) => do
    let (width, src) ← indentation src
    if width.isNone then .ok (.clip, none, src)
    else
      let (c, src) := chomping src
      .ok (c.getD .clip, width, src)

/-- Reads a block scalar after its `|` or `>`. `parent` is the indentation of the block it stands
in. -/
def blockScalar (literal : Bool) (parent : Option Nat) (src : Source) :
    Except Fault (List Char × Source) := do
  let (chomping, width, src) ← blockHeader src
  let src : Source := src.dropBlanks
  let src : Source := if src.starts '#' then src.dropWhile (!isBreak ·.char) else src
  if !src.lineEnds then throw .blockHeader
  let indent := width.map (parent.getD 0 + ·)
  let (b, rest) ← blockFrom literal (parent.elim 0 (· + 1))
    ⟨indent, 0, [], none, [], false, false⟩ src.dropBreak
  .ok (b.finish chomping, rest)

end Longform.Yaml
