import Longform.Decimal
import Longform.Text.Basic

/-!
# JSON

The values of JSON, their text on several lines (`Json.Value.render`), and reading
them (`Json.read`). Numbers keep their spelling.

`ofShortEscape?_shortEscape?`: the letter of an escape stands for the character it was made for.
-/

namespace Longform.Json

open Text

/-- A value that JSON can express. -/
inductive Value where
  | null
  | bool (value : Bool)
  | number (text : String)
  | string (text : String)
  | array (items : List Value)
  | object (entries : List (String × Value))
  deriving Inhabited

/-! ## Characters of strings -/

/-- The letter that stands for a character after a backslash. -/
def shortEscape? : Char → Option Char
  | '"' => some '"'
  | '\\' => some '\\'
  | '\x08' => some 'b'
  | '\x0c' => some 'f'
  | '\n' => some 'n'
  | '\r' => some 'r'
  | '\t' => some 't'
  | _ => none

/-- How a character is written between quotes. -/
def escapeChar (c : Char) : List Char :=
  match shortEscape? c with
  | some letter => ['\\', letter]
  | none =>
    if c.toNat < 0x20 then '\\' :: 'u' :: (hexDigits 4 c.toNat).map Char.toLower else [c]

/-- The character that a letter after a backslash stands for. -/
def ofShortEscape? : Char → Option Char
  | '"' => some '"'
  | '\\' => some '\\'
  | '/' => some '/'
  | 'b' => some '\x08'
  | 'f' => some '\x0c'
  | 'n' => some '\n'
  | 'r' => some '\r'
  | 't' => some '\t'
  | _ => none

theorem ofShortEscape?_shortEscape? {c letter : Char} (h : shortEscape? c = some letter) :
    ofShortEscape? letter = some c := by
  unfold shortEscape? at h
  split at h <;> simp_all <;> subst h <;> rfl

/-- Reads four hexadecimal digits. -/
def cutUnit? (s : List Char) : Option (Nat × List Char) := do
  let digits := s.take 4
  if digits.length < 4 then none else some (← digits? 16 digits, s.drop 4)

/-- Reads what follows a backslash. Two halves of a character stand in escapes of their own. -/
def cutEscape? (s : List Char) : Option (Char × List Char) :=
  match s with
  | 'u' :: s => do
    let (unit, s) ← cutUnit? s
    if 0xD800 ≤ unit ∧ unit < 0xDC00 then do
      let (low, s) ← cutUnit? (← after? ['\\', 'u'] s)
      if 0xDC00 ≤ low ∧ low < 0xE000 then
        some (Char.ofNat (0x10000 + (unit - 0xD800) * 0x400 + (low - 0xDC00)), s)
      else none
    else some (← charOf? unit, s)
  | c :: s => (ofShortEscape? c).map (·, s)
  | [] => none

/-- Reads a string after its opening quote. -/
def cutString? (s : List Char) : Option (List Char × List Char) :=
  match s with
  | [] => none
  | c :: rest =>
    if c = '"' then some ([], rest)
    else if c = '\\' then do
      let (meant, more) ← cutEscape? rest
      if more.length < rest.length then do
        let (text, more) ← cutString? more
        some (meant :: text, more)
      else none
    else if c.toNat < 0x20 then none
    else (cutString? rest).map fun (text, rest) => (c :: text, rest)
termination_by s.length

/-! ## Writing -/

/-- A string between quotes. -/
def quoted (s : String) : String :=
  "\"" ++ String.ofList (s.toList.flatMap escapeChar) ++ "\""

/-- The start of a line that lies in `depth` brackets. -/
def indent (depth : Nat) : String := "\n" ++ String.ofList (List.replicate (2 * depth) ' ')

/-- Puts items on lines of their own between two brackets. -/
def bracketed (left right : String) (depth : Nat) (items : List String) : String :=
  if items = [] then left ++ right
  else left ++ String.intercalate "," (items.map (indent (depth + 1) ++ ·)) ++ indent depth ++ right

namespace Value

mutual

/-- The text of a value that lies in `depth` brackets. -/
def renderAt (depth : Nat) : Value → String
  | .null => "null"
  | .bool value => if value then "true" else "false"
  | .number text => text
  | .string text => quoted text
  | .array items => bracketed "[" "]" depth (renderItems (depth + 1) items)
  | .object entries => bracketed "\x7b" "\x7d" depth (renderEntries (depth + 1) entries)

def renderItems (depth : Nat) : List Value → List String
  | [] => []
  | v :: more => renderAt depth v :: renderItems depth more

def renderEntries (depth : Nat) : List (String × Value) → List String
  | [] => []
  | (key, v) :: more => (quoted key ++ ": " ++ renderAt depth v) :: renderEntries depth more

end

/-- The text of a value. -/
def render (v : Value) : String := renderAt 0 v

end Value

/-! ## Reading -/

/-- The blanks between the parts of a value. -/
def isSpace (c : Char) : Bool := c == ' ' || c == '\t' || c == '\n' || c == '\r'

/-- The characters of numbers. -/
def isNumberChar (c : Char) : Bool := c.isDigit || ['+', '-', '.', 'e', 'E'].contains c

/-- Whether a text is a number: a whole number without idle zeros, then perhaps a fraction and a
power of ten. Its value must not be too large for a binary number. -/
def isNumber (s : List Char) : Bool :=
  let body := (after? ['-'] s).getD s
  let whole := body.takeWhile Char.isDigit
  let rest := body.dropWhile Char.isDigit
  let fraction := ((after? ['.'] rest).getD []).takeWhile Char.isDigit
  !whole.isEmpty && (whole.head? != some '0' || whole == ['0'])
    && (rest.head? != some '.' || !fraction.isEmpty)
    && (Decimal.ofText? body).any (·.toFloat.isFinite)

/-- A reader of values. -/
abbrev Reader := List Char → Option (Value × List Char)

/-- Reads the items of an array, of which there is at least one. -/
def items? (value : Reader) (s : List Char) : Option (List Value × List Char) := do
  let (v, rest) ← value s
  match rest.dropWhile isSpace with
  | ']' :: rest => some ([v], rest)
  | ',' :: rest =>
    if rest.length < s.length then do
      let (more, rest) ← items? value rest
      some (v :: more, rest)
    else none
  | _ => none
termination_by s.length

/-- Reads the entries of an object, of which there is at least one. -/
def entries? (value : Reader) (s : List Char) :
    Option (List (String × Value) × List Char) := do
  let (key, rest) ← cutString? (← after? ['"'] (s.dropWhile isSpace))
  let (v, rest) ← value (← after? [':'] (rest.dropWhile isSpace))
  let entry := (String.ofList key, v)
  match rest.dropWhile isSpace with
  | '}' :: rest => some ([entry], rest)
  | ',' :: rest =>
    if rest.length < s.length then do
      let (more, rest) ← entries? value rest
      some (entry :: more, rest)
    else none
  | _ => none
termination_by s.length

/-- Reads a value that is no array and no object. -/
def scalar? (s : List Char) : Option (Value × List Char) :=
  match after? "null".toList s, after? "true".toList s, after? "false".toList s, s with
  | some rest, _, _, _ => some (.null, rest)
  | _, some rest, _, _ => some (.bool true, rest)
  | _, _, some rest, _ => some (.bool false, rest)
  | _, _, _, '"' :: rest =>
    (cutString? rest).map fun (text, rest) => (.string (String.ofList text), rest)
  | _, _, _, s =>
    let token := s.takeWhile isNumberChar
    if isNumber token then some (.number (String.ofList token), s.dropWhile isNumberChar) else none

/-- Reads a value in which arrays and objects are nested at most `depth` times. -/
def value? : (depth : Nat) → Reader
  | 0, s => scalar? (s.dropWhile isSpace)
  | depth + 1, s =>
    match s.dropWhile isSpace with
    | '[' :: rest =>
      match rest.dropWhile isSpace with
      | ']' :: rest => some (.array [], rest)
      | _ => (items? (value? depth) rest).map fun (items, rest) => (.array items, rest)
    | '{' :: rest =>
      match rest.dropWhile isSpace with
      | '}' :: rest => some (.object [], rest)
      | _ => (entries? (value? depth) rest).map fun (entries, rest) => (.object entries, rest)
    | s => scalar? s

/-- How deeply arrays and objects may be nested. -/
def maxDepth : Nat := 127

/-- Reads a text that is one value. -/
def read (text : String) : Option Value := do
  let (v, rest) ← value? maxDepth text.toList
  if (rest.dropWhile isSpace).isEmpty then some v else none

end Longform.Json
