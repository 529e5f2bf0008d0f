import Longform.Pattern.Property
import Longform.Text.Basic
import Longform.Text.Hex

/-!
# Escapes of patterns

What a backslash and the characters after it mean: a character, a class of
characters or a place. Blanks count unless the pattern says that they do not
(`skip`).
-/

namespace Longform.Pattern

open Text

/-- What one element of a pattern matches. -/
inductive Atom where
  | char (c : Char)
  /-- One character of a class. -/
  | oneOf
  /-- A place between characters. -/
  | place

/-- What follows blanks and comments, where they do not count. -/
def skip (spaced : Bool) (s : List Char) : List Char :=
  if !spaced then s
  else match s.dropWhile isBlank with
    | '#' :: rest =>
      let after := rest.dropWhile (· != '\n')
      if after.length < s.length then skip spaced after else after
    | rest => rest
termination_by s.length

/-- The characters that mean something else than themselves. -/
def isSpecial (c : Char) : Bool := "\\.+*?()|[]\x7b\x7d^$#&-~".contains c

/-- Whether a backslash makes a character stand for itself. -/
def isEscapable (c : Char) : Bool :=
  c.toNat < 0x80 && !c.isAlphanum && c != '<' && c != '>'

/-- Reads the number of a character. Without braces it has the given count of digits. -/
def cutHex? (spaced : Bool) (width : Nat) (s : List Char) : Option (Atom × List Char) :=
  match skip spaced s with
  | '\x7b' :: rest => do
    let digits := rest.takeWhile (· != '\x7d')
    let n ← digits? 16 (if spaced then digits.filter (!isBlank ·) else digits)
    let c ← charOf? n
    some (.char c, ← after? ['\x7d'] (rest.dropWhile (· != '\x7d')))
  | s => do
    let digits := s.take width
    if digits.length < width then none
    else some (.char (← charOf? (← digits? 16 digits)), s.drop width)

/-- A property with a value as its two parts. -/
def cutValue? (name : List Char) : Option (List Char × List Char) :=
  (cut? ['!', '='] name).or ((cut? [':'] name).or (cut? ['='] name))

/-- Reads the name of a class of characters. -/
def cutClass? (spaced : Bool) (s : List Char) : Option (Atom × List Char) :=
  match skip spaced s with
  | '\x7b' :: rest => do
    let text := rest.takeWhile (· != '\x7d')
    let name := if spaced then text.filter (!isBlank ·) else text
    let known := match cutValue? name with
      | some (property, value) => Property.hasValue property value
      | none => Property.isClass name
    let rest ← after? ['\x7d'] (rest.dropWhile (· != '\x7d'))
    if known then some (.oneOf, rest) else none
  | c :: rest => if Property.isClass [c] then some (.oneOf, rest) else none
  | [] => none

/-- Reads the name of a place at the edge of a word, after its opening brace. A brace that begins
no name may belong to a count. -/
def cutEdge? (spaced : Bool) (s : List Char) : Option (List Char) :=
  match s with
  | '\x7b' :: rest =>
    let isNameChar (c : Char) : Bool := c.isAlpha || c == '-'
    match skip spaced rest with
    | [] => none
    | c :: more =>
      if !isNameChar c then some s
      else
        let inside := fun d => isNameChar d || (spaced && isBlank d)
        let name := ((c :: more).takeWhile inside).filter isNameChar
        if ["start", "end", "start-half", "end-half"].contains (String.ofList name) then
          after? ['\x7d'] ((c :: more).dropWhile inside)
        else none
  | s => some s

/-- Reads what follows a backslash. -/
def cutEscape? (spaced : Bool) (s : List Char) : Option (Atom × List Char) :=
  match s with
  | [] => none
  | c :: rest =>
    if isSpecial c || isEscapable c then some (.char c, rest)
    else if "dswDSW".contains c then some (.oneOf, rest)
    else match c with
      | 'a' => some (.char '\x07', rest)
      | 'f' => some (.char '\x0c', rest)
      | 't' => some (.char '\t', rest)
      | 'n' => some (.char '\n', rest)
      | 'r' => some (.char '\r', rest)
      | 'v' => some (.char '\x0b', rest)
      | 'x' => cutHex? spaced 2 rest
      | 'u' => cutHex? spaced 4 rest
      | 'U' => cutHex? spaced 8 rest
      | 'p' => cutClass? spaced rest
      | 'P' => cutClass? spaced rest
      | 'b' => (cutEdge? spaced rest).map (.place, ·)
      | c => if "ABz<>".contains c then some (.place, rest) else none

end Longform.Pattern
