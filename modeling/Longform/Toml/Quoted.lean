import Longform.Text.Basic
import Longform.Text.Hex

/-!
# TOML strings

The four ways of writing a string: between one or three double quotes, where a
backslash escapes, and between one or three single quotes, where nothing does.
`Quoted.encode` writes a string in the style that needs no escapes, if there is
one, and `Quoted.decode` reads any of the four.
-/

namespace Longform.Toml

/-- A way of writing a string. -/
inductive Style where
  | basic
  | literal
  | longBasic
  | longLiteral
  deriving DecidableEq

namespace Quoted

open Text

/-! ## Characters -/

/-- The control characters, which only an escape can write. Tabs and line feeds are none of
them. -/
def isControl (c : Char) : Bool := (c.toNat < 0x20 && c != '\t' && c != '\n') || c == '\x7f'

/-- The characters that stand for themselves on one line. -/
def isPlain (c : Char) : Bool := !isControl c && c != '\n'

/-- The character that a backslash and a letter stand for. -/
def escapedChar? : Char → Option Char
  | 'b' => some '\x08'
  | 't' => some '\t'
  | 'n' => some '\n'
  | 'f' => some '\x0c'
  | 'r' => some '\r'
  | '"' => some '"'
  | '\\' => some '\\'
  | _ => none

/-- How a character other than a quote is written between double quotes. -/
def escapeChar (long : Bool) (c : Char) : List Char :=
  match c with
  | '\x08' => ['\\', 'b']
  | '\t' => ['\\', 't']
  | '\n' => if long then ['\n'] else ['\\', 'n']
  | '\x0c' => ['\\', 'f']
  | '\r' => ['\\', 'r']
  | '\\' => ['\\', '\\']
  | c => if isControl c then '\\' :: 'u' :: hexDigits 4 c.toNat else [c]

/-! ## Writing -/

/-- The length of the longest run of a character. -/
def longestRun (c : Char) (s : List Char) : Nat :=
  ((s.splitBy (· == ·)).filter (·.contains c)).foldl (fun n run => max n run.length) 0

/-- The style in which a string is written: the first one that needs no escapes, and double quotes
when there is none. -/
def Style.choose (s : List Char) : Style :=
  let newline := s.contains '\n'
  let control := s.any isControl
  let backslash := s.contains '\\'
  let double := longestRun '"' s
  let single := longestRun '\'' s
  if !control && !backslash && double = 0 && !newline then .basic
  else if !control && single = 0 && !newline then .literal
  else if !control && !backslash && double ≤ 2 then .longBasic
  else if !control && single ≤ 2 then .longLiteral
  else if newline then .longBasic
  else .basic

/-- Writes the inside of double quotes. No more than `allowed` quotes follow each other without an
escape; `run` of them have just been written. -/
def escape (long : Bool) (allowed : Nat) : (run : Nat) → List Char → List Char
  | _, [] => []
  | run, c :: cs =>
    if c = '"' then
      if run < allowed then '"' :: escape long allowed (run + 1) cs
      else '\\' :: '"' :: escape long allowed 0 cs
    else escapeChar long c ++ escape long allowed 0 cs

/-- Writes a string in a style. A long string with line feeds begins on a line of its own. -/
def encodeIn (style : Style) (s : List Char) : List Char :=
  let lead := if s.contains '\n' then ['\n'] else []
  match style with
  | .basic => ['"'] ++ escape false 0 0 s ++ ['"']
  | .literal => ['\''] ++ s ++ ['\'']
  | .longBasic => ['"', '"', '"'] ++ lead ++ escape true 2 0 s ++ ['"', '"', '"']
  | .longLiteral => ['\'', '\'', '\''] ++ lead ++ s ++ ['\'', '\'', '\'']

/-- Writes a string. -/
def encode (s : List Char) : List Char := encodeIn (Style.choose s) s

/-! ## Reading -/

/-- Reads what follows a backslash: the character meant and how many characters it took. -/
def escapeSequence? (s : List Char) : Option (Char × Nat) := do
  let c ← s.head?
  let width := if c = 'u' then 4 else if c = 'U' then 8 else 0
  if width = 0 then (escapedChar? c).map (·, 1)
  else
    let digits := (s.drop 1).take width
    if digits.length < width then none
    else (charOf? (← digits? 16 digits)).map (·, width + 1)

/-- Reads a short string after its double quote: what it says and what follows it. -/
def basic? (s : List Char) : Option (List Char × List Char) :=
  match s with
  | [] => none
  | c :: rest =>
    if c = '"' then some ([], rest)
    else if c = '\\' then do
      let (meant, width) ← escapeSequence? rest
      let (text, rest) ← basic? (rest.drop width)
      some (meant :: text, rest)
    else if isPlain c then do
      let (text, rest) ← basic? rest
      some (c :: text, rest)
    else none
termination_by s.length
decreasing_by all_goals (simp only [List.length_cons, List.length_drop]; omega)

/-- Reads a short string after its single quote. -/
def literal? : List Char → Option (List Char × List Char)
  | [] => none
  | c :: rest =>
    if c = '\'' then some ([], rest)
    else if isPlain c then (literal? rest).map fun (text, rest) => (c :: text, rest)
    else none

/-- The quotes at the end of a long string that belong to what it says, when three quotes that end
it are followed by `s`. There are at most two. -/
def lastQuotes (quote : Char) : (s : List Char) → List Char × List Char
  | a :: b :: rest =>
    if a = quote ∧ b = quote then ([quote, quote], rest)
    else if a = quote then ([quote], b :: rest)
    else ([], a :: b :: rest)
  | [a] => if a = quote then ([quote], []) else ([], [a])
  | [] => ([], [])

/-- Whether nothing but blanks comes before the end of the line. -/
def restOfLineBlank (s : List Char) : Bool :=
  match s.dropWhile isIndent with
  | '\n' :: _ => true
  | '\r' :: '\n' :: _ => true
  | _ => false

/-- Whether a character belongs to what a backslash at the end of a line skips. -/
def isSkipped (c : Char) (rest : List Char) : Bool :=
  isIndent c || c == '\n' || (c == '\r' && rest.head? == some '\n')

/-- Reads on in a long string between double quotes. -/
def longBasic? (skipping : Bool) (s : List Char) : Option (List Char × List Char) :=
  match s with
  | [] => none
  | c :: rest =>
    if skipping && isSkipped c rest then longBasic? true rest
    else if c = '"' then
      match after? ['"', '"'] rest with
      | some rest => some (lastQuotes '"' rest)
      | none => (longBasic? false rest).map fun (text, rest) => ('"' :: text, rest)
    else if c = '\\' then
      if restOfLineBlank rest then longBasic? true rest
      else do
        let (meant, width) ← escapeSequence? rest
        let (text, rest) ← longBasic? false (rest.drop width)
        some (meant :: text, rest)
    else if c = '\r' && rest.head? == some '\n' then longBasic? false rest
    else if isPlain c || c = '\n' then
      (longBasic? false rest).map fun (text, rest) => (c :: text, rest)
    else none
termination_by s.length
decreasing_by all_goals (simp only [List.length_cons, List.length_drop]; omega)

/-- Reads on in a long string between single quotes. -/
def longLiteral? : List Char → Option (List Char × List Char)
  | [] => none
  | c :: rest =>
    match c, after? ['\'', '\''] rest with
    | '\'', some rest => some (lastQuotes '\'' rest)
    | c, _ =>
      if c = '\r' && rest.head? == some '\n' then longLiteral? rest
      else if isPlain c || c = '\n' then
        (longLiteral? rest).map fun (text, rest) => (c :: text, rest)
      else none

/-- What follows the line end that a long string may begin with. -/
def dropFirstBreak : List Char → List Char
  | '\n' :: rest => rest
  | '\r' :: '\n' :: rest => rest
  | s => s

/-- Reads a string in any style: what it says and what follows it. -/
def decode (s : List Char) : Option (List Char × List Char) :=
  match after? ['"', '"', '"'] s, after? ['\'', '\'', '\''] s, s with
  | some rest, _, _ => longBasic? false (dropFirstBreak rest)
  | _, some rest, _ => longLiteral? (dropFirstBreak rest)
  | _, _, '"' :: rest => basic? rest
  | _, _, '\'' :: rest => literal? rest
  | _, _, _ => none

end Quoted

end Longform.Toml
