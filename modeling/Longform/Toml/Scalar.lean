import Longform.Decimal
import Longform.Text.Basic
import Longform.Toml.Value

/-!
# TOML numbers and times

Numbers and booleans are read as whole tokens (`Value.ofToken?`). Dates and times
(`cutMoment?`) are cut from what is left to read, for one blank may divide a date
from a time.
-/

namespace Longform.Toml

/-! ## Numbers and booleans -/

open Text

/-- Digits with single bars between them. -/
def isBarred (s : List Char) : Bool :=
  (splitOn '_' s).all fun piece => !piece.isEmpty && piece.all Char.isDigit

/-- Barred digits that do not begin with an idle zero. -/
def isWhole (s : List Char) : Bool := isBarred s && (s.head? != some '0' || s == ['0'])

/-- The digits of a number without their bars. -/
def withoutBars (s : List Char) : List Char := s.filter (· != '_')

/-- A number in another base than ten. -/
def ofBase? (base : Nat) (s : List Char) : Option Int :=
  if (splitOn '_' s).all (!·.isEmpty) then (digits? base (withoutBars s)).map Int.ofNat else none

/-- An integer, if it fits into 64 bits with a sign. -/
def integer? (s : List Char) : Option Int := do
  let n ← match s with
    | '0' :: 'x' :: body => ofBase? 16 body
    | '0' :: 'o' :: body => ofBase? 8 body
    | '0' :: 'b' :: body => ofBase? 2 body
    | s =>
      let (negative, body) := cutSign s
      if isWhole body then
        let size : Int := ofDigits (withoutBars body)
        some (if negative then -size else size)
      else none
  if -(wordSize 63 : Int) ≤ n ∧ n < wordSize 63 then some n else none

/-- Whether a text without a sign has the form of a number with a point or an exponent. -/
def isFloat (s : List Char) : Bool :=
  let isExponent (c : Char) := c == 'e' || c == 'E'
  let mantissa := s.takeWhile (!isExponent ·)
  let power := (s.dropWhile (!isExponent ·)).tail
  let whole := mantissa.takeWhile (· != '.')
  let fraction := (mantissa.dropWhile (· != '.')).tail
  isWhole whole
    && (if mantissa.contains '.' then isBarred fraction else s.any isExponent)
    && (!s.any isExponent || isBarred (cutSign power).2)

/-- A number with a point or an exponent, an infinity or the text for no number. Numbers that are
too large are refused, but not very small negative ones. -/
def float? (s : List Char) : Option Float :=
  let (negative, body) := cutSign s
  let signed (x : Float) := if negative then -x else x
  if body = "inf".toList then some (signed (1.0 / 0.0))
  else if body = "nan".toList then some (signed (0.0 / 0.0))
  else if isFloat body then do
    let x := (← Decimal.ofText? (withoutBars body)).toFloat
    if x.isFinite || negative then some (signed x) else none
  else none

/-- A number or a boolean. -/
def Value.ofToken? (s : List Char) : Option Value :=
  if s = "true".toList then some (.bool true)
  else if s = "false".toList then some (.bool false)
  else match float? s with
    | some x => some (.float x)
    | none => (integer? s).map .integer

/-! ## Dates and times -/

/-- Reads the given count of decimal digits. -/
def cutNumber? (width : Nat) (s : List Char) : Option (Nat × List Char) :=
  let digits := s.take width
  if digits.length = width ∧ digits.all Char.isDigit then some (ofDigits digits, s.drop width)
  else none

/-- The length of a month. -/
def daysIn (year month : Nat) : Nat :=
  if month = 2 then if (year % 4 = 0 ∧ year % 100 ≠ 0) ∨ year % 400 = 0 then 29 else 28
  else if [4, 6, 9, 11].contains month then 30
  else 31

/-- What follows a date. -/
def afterDate? (s : List Char) : Option (List Char) := do
  let (year, s) ← cutNumber? 4 s
  let (month, s) ← cutNumber? 2 (← after? ['-'] s)
  let (day, s) ← cutNumber? 2 (← after? ['-'] s)
  if 1 ≤ month ∧ month ≤ 12 ∧ 1 ≤ day ∧ day ≤ daysIn year month then some s else none

/-- What follows an hour and a minute. -/
def afterMinute? (s : List Char) : Option (List Char) := do
  let (hour, s) ← cutNumber? 2 s
  let (minute, s) ← cutNumber? 2 (← after? [':'] s)
  if hour ≤ 23 ∧ minute ≤ 59 then some s else none

/-- What follows a time. Its seconds may count to sixty and have a fraction. -/
def afterTime? (s : List Char) : Option (List Char) := do
  let (second, s) ← cutNumber? 2 (← after? [':'] (← afterMinute? s))
  if 60 < second then none
  else match s with
    | '.' :: d :: more =>
      if d.isDigit then some (more.dropWhile Char.isDigit) else some ('.' :: d :: more)
    | s => some s

/-- What follows the distance from the time of Greenwich, if there is one. -/
def afterOffset (s : List Char) : List Char :=
  match s with
  | c :: more =>
    if c = 'Z' ∨ c = 'z' then more
    else if c = '+' ∨ c = '-' then (afterMinute? more).getD s
    else s
  | [] => []

/-- What follows a date, a time or both. -/
def afterMoment? (s : List Char) : Option (List Char) :=
  match afterDate? s with
  | none => afterTime? s
  | some (c :: more) =>
    if c = 'T' ∨ c = 't' ∨ c = ' ' then
      some (((afterTime? more).map afterOffset).getD (c :: more))
    else some (c :: more)
  | some [] => some []

/-- Reads a date, a time or both. -/
def cutMoment? (s : List Char) : Option (Value × List Char) :=
  (afterMoment? s).map fun rest =>
    (.moment (String.ofList (s.take (s.length - rest.length))), rest)

end Longform.Toml
