import Longform.Toml.Quoted
import Longform.Toml.Scalar

/-!
# Lines of TOML

A TOML text is a list of lines, each of which opens a table or sets a key; only
strings and arrays go on over the end of a line. Every reader here answers what it
read and what follows it.

`Toml.read` reads the table that a text describes.
-/

namespace Longform.Toml

open Text

/-- A line that says something. Paths are divided into what comes before their last dot and the
last key. -/
inductive Line where
  /-- The header of a table. -/
  | header (path : List String) (key : String)
  /-- The header of a further table of an array. -/
  | item (path : List String) (key : String)
  | setting (path : List String) (key : String) (value : Value)

/-- A reader of values. -/
abbrev ValueReader := List Char → Option (Value × List Char)

/-! ## Blanks and comments -/

/-- The characters that a comment may hold. -/
def isCommentChar (c : Char) : Bool :=
  let n := c.toNat
  c == '\t' || (0x20 ≤ n && n ≤ 0x7E) || 0x80 ≤ n

/-- What follows the end of a line. -/
def afterBreak? : List Char → Option (List Char)
  | '\n' :: rest => some rest
  | '\r' :: '\n' :: rest => some rest
  | _ => none

/-- What follows spaces, tabs and a comment. -/
def dropComment (s : List Char) : List Char :=
  match s.dropWhile isIndent with
  | '#' :: rest => rest.dropWhile isCommentChar
  | rest => rest

/-- What follows the end of a line that says no more. The text may end without one. -/
def afterLine? (s : List Char) : Option (List Char) :=
  match dropComment s with
  | [] => some []
  | rest => afterBreak? rest

/-- What follows blanks, comments and the ends of lines. -/
def dropFiller (s : List Char) : List Char :=
  match _h : afterBreak? (dropComment s) with
  | some rest => if rest.length < s.length then dropFiller rest else rest
  | none => s.dropWhile isIndent
termination_by s.length

/-! ## Keys -/

/-- The characters of a key without quotes. -/
def isBareChar (c : Char) : Bool := c.isAlphanum || c == '_' || c == '-'

/-- Reads a key without dots. -/
def simpleKey? (s : List Char) : Option (List Char × List Char) :=
  match s with
  | '"' :: rest => Quoted.basic? rest
  | '\'' :: rest => Quoted.literal? rest
  | s =>
    if startsIn isBareChar s then some (s.takeWhile isBareChar, s.dropWhile isBareChar) else none

/-- Reads the keys between dots. Blanks may surround each of them. -/
def keys? (s : List Char) : Option (List String × List Char) := do
  let (key, rest) ← simpleKey? (s.dropWhile isIndent)
  match rest.dropWhile isIndent with
  | '.' :: more =>
    if more.length < s.length then do
      let (keys, rest) ← keys? more
      some (String.ofList key :: keys, rest)
    else none
  | rest => some ([String.ofList key], rest)
termination_by s.length

/-- How many keys a path may have, and how deeply arrays and tables between braces may be
nested. -/
def maxDepth : Nat := 79

/-- Reads a path: the keys before the last dot and the last key. -/
def path? (s : List Char) : Option (List String × String × List Char) := do
  let (keys, rest) ← keys? s
  if keys.length ≤ maxDepth then some (keys.dropLast, ← keys.getLast?, rest) else none

/-! ## Values -/

/-- Reads a key and its value. -/
def setting? (value : ValueReader) (s : List Char) :
    Option ((List String × String × Value) × List Char) := do
  let (path, key, rest) ← path? s
  let (v, rest) ← value ((← after? ['='] rest).dropWhile isIndent)
  some ((path, key, v), rest)

/-- Reads the settings of a table after its opening brace, of which there is at least one. -/
def settings? (value : ValueReader) (s : List Char) :
    Option (List (List String × String × Value) × List Char) := do
  let (setting, rest) ← setting? value s
  match rest.dropWhile isIndent with
  | '}' :: rest => some ([setting], rest)
  | ',' :: rest =>
    if rest.length < s.length then do
      let (more, rest) ← settings? value rest
      some (setting :: more, rest)
    else none
  | _ => none
termination_by s.length

/-- Reads a table after its opening brace. -/
def braces? (value : ValueReader) (s : List Char) : Option (Value × List Char) :=
  match s.dropWhile isIndent with
  | '}' :: rest => some (.table .closed [], rest)
  | _ => do
    let (settings, rest) ← settings? value s
    let entries ← (settings.foldlM (fun (t : Table) (path, key, v) => t.set path key v) []).toOption
    some (.table .closed entries, rest)

/-- Reads the items of an array after its opening bracket. The last item may have a comma too. -/
def items? (value : ValueReader) (s : List Char) : Option (List Value × List Char) :=
  match dropFiller s with
  | ']' :: rest => some ([], rest)
  | start => do
    let (item, rest) ← value start
    match dropFiller rest with
    | ']' :: rest => some ([item], rest)
    | ',' :: rest =>
      if rest.length < s.length then do
        let (more, rest) ← items? value rest
        some (item :: more, rest)
      else none
    | _ => none
termination_by s.length

/-- The characters of numbers and booleans. -/
def isTokenChar (c : Char) : Bool := isBareChar c || c == '+' || c == '.'

/-- Reads a value that is no array and no table. -/
def scalar? (s : List Char) : Option (Value × List Char) :=
  match Quoted.decode s with
  | some (text, rest) => some (.string (String.ofList text), rest)
  | none =>
    match cutMoment? s with
    | some found => some found
    | none => (Value.ofToken? (s.takeWhile isTokenChar)).map (·, s.dropWhile isTokenChar)

/-- Reads a value in which arrays and tables are nested at most `depth` times. -/
def value? : (depth : Nat) → ValueReader
  | 0, s => scalar? s
  | depth + 1, s =>
    match s with
    | '[' :: rest => (items? (value? depth) rest).map fun (items, rest) => (.array items, rest)
    | '{' :: rest => braces? (value? depth) rest
    | s => scalar? s

/-! ## Lines -/

/-- Reads a line that says something, up to where only a comment may follow. -/
def line? (s : List Char) : Option (Line × List Char) :=
  match s with
  | '[' :: '[' :: rest => do
    let (path, key, rest) ← path? rest
    some (.item path key, ← after? [']', ']'] rest)
  | '[' :: rest => do
    let (path, key, rest) ← path? rest
    some (.header path key, ← after? [']'] rest)
  | s => do
    let ((path, key, v), rest) ← setting? (value? maxDepth) s
    some (.setting path key v, rest)

/-- Reads the lines of a text. -/
def lines? (s : List Char) : Except Fault (List Line) :=
  match _h : afterLine? s, s.dropWhile isIndent with
  | _, [] => .ok []
  | some rest, _ => if rest.length < s.length then lines? rest else .ok []
  | none, start =>
    match line? start with
    | none => .error (.malformed (String.ofList start))
    | some (line, rest) =>
      match afterLine? rest with
      | none => .error (.malformed (String.ofList rest))
      | some rest =>
        if rest.length < s.length then do return line :: (← lines? rest)
        else .ok [line]
termination_by s.length

/-! ## Tables -/

/-- A table that is being read, and the path of the table to which keys belong now. -/
structure Draft where
  entries : Table
  place : List String

/-- Takes a line into account. -/
def Draft.add (d : Draft) : Line → Except Fault Draft
  | .header path key => do return ⟨← d.entries.head path key, path ++ [key]⟩
  | .item path key => do return ⟨← d.entries.push path key, path ++ [key]⟩
  | .setting path key v => do
    let entries ← Table.alter false (fun _ t => t.set path key v) d.place .headed d.entries
    return { d with entries }

/-- Reads the table that a text describes. A byte order mark at its beginning does not count. -/
def read (text : String) : Except Fault Table := do
  let chars := text.toList
  let lines ← lines? ((after? ['\uFEFF'] chars).getD chars)
  return (← lines.foldlM Draft.add ⟨[], []⟩).entries

end Longform.Toml
