import Longform.Text.Hex

/-!
# Decimal numbers

Reading a decimal as a binary number and writing a binary number as a decimal.
`Decimal.shortest` finds the fewest digits that read back as the same number, in
exact arithmetic: a number `significand · 2 ^ exponent` stands for the interval of
reals that are nearer to it than to its neighbours, and the first decimal grid
with a point in that interval gives the digits.
-/

namespace Longform

/-- The number `digits · 10 ^ exponent`. -/
structure Decimal where
  digits : Nat
  exponent : Int
  deriving DecidableEq

namespace Decimal

open Text

/-! ## Reading -/

/-- The binary number nearest to a decimal. Beyond a few hundred digits before or after the point
the answer is infinity or zero. -/
def toFloat (d : Decimal) : Float :=
  let size := (toString d.digits).length + d.exponent
  if d.digits = 0 ∨ size < -400 then 0.0
  else if 400 < size then 1.0 / 0.0
  else Float.ofScientific d.digits (d.exponent < 0) d.exponent.natAbs

/-- Splits a text of the form `digits`, `digits.digits` or either with an exponent after the letter
`e`. A side of the point may be empty, but not both. -/
def ofText? (s : List Char) : Option Decimal := do
  let whole := s.takeWhile Char.isDigit
  let rest := s.dropWhile Char.isDigit
  let (fraction, rest) := match rest with
    | '.' :: rest => (rest.takeWhile Char.isDigit, rest.dropWhile Char.isDigit)
    | rest => ([], rest)
  if whole.isEmpty && fraction.isEmpty then none
  let shift ← match rest with
    | [] => some 0
    | e :: '-' :: power => if e.toLower == 'e' then (power? power).map fun n => -(n : Int) else none
    | e :: '+' :: power => if e.toLower == 'e' then (power? power).map Int.ofNat else none
    | e :: power => if e.toLower == 'e' then (power? power).map Int.ofNat else none
  some ⟨ofDigits (whole ++ fraction), shift - fraction.length⟩
where
  /-- An exponent without its sign. -/
  power? (s : List Char) : Option Nat :=
    if s.isEmpty || !s.all Char.isDigit then none else some (ofDigits s)

/-! ## Shortest digits -/

/-- A positive number `significand · 2 ^ exponent`. -/
structure Binary where
  significand : Nat
  exponent : Int
  /-- The next smaller number is only half as far away as the next greater one. -/
  lowEdge : Bool

/-- The absolute value of a finite binary number. -/
def Binary.ofFloat (x : Float) : Binary :=
  let bits := x.toBits.toNat
  let fraction : Nat := bits % wordSize 52
  let biased : Nat := bits / wordSize 52 % wordSize 11
  if biased = 0 then ⟨fraction, -1074, false⟩
  else ⟨wordSize 52 + fraction, (biased : Int) - 1075, fraction = 0 ∧ 1 < biased⟩

/-- The multiple of `10 ^ power` that reads back as `b` and is nearest to it, if there is one. Of
two equally near ones the even one is taken. -/
def gridPoint? (b : Binary) (power : Int) : Option Nat :=
  let step := Nat.pow 10 power.toNat * Nat.pow 2 (2 - b.exponent).toNat
  let scale (quarters : Nat) :=
    quarters * Nat.pow 2 (b.exponent - 2).toNat * Nat.pow 10 (-power).toNat
  let value := scale (4 * b.significand)
  let low := scale (4 * b.significand - if b.lowEdge then 1 else 2)
  let high := scale (4 * b.significand + 2)
  let readsBack (n : Nat) : Bool :=
    if b.significand % 2 = 0 then low ≤ n * step ∧ n * step ≤ high
    else low < n * step ∧ n * step < high
  let below := value / step
  let down := value - below * step
  let up := (below + 1) * step - value
  match readsBack below && below != 0, readsBack (below + 1) with
  | true, true =>
    if down < up ∨ (down = up ∧ below % 2 = 0) then some below else some (below + 1)
  | true, false => some below
  | false, true => some (below + 1)
  | false, false => none

/-- Tries the grids `10 ^ power`, `10 ^ (power - 1)` and so on. -/
def searchGrids (b : Binary) : (tries : Nat) → (power : Int) → Decimal
  | 0, power => ⟨0, power⟩
  | tries + 1, power =>
    match gridPoint? b power with
    | some digits => ⟨digits, power⟩
    | none => searchGrids b tries (power - 1)

/-- The decimal with the fewest digits that reads back as the absolute value of a finite number, and
of those the nearest. -/
def shortest (x : Float) : Decimal :=
  let b := Binary.ofFloat x
  if b.significand = 0 then ⟨0, 0⟩
  else
    let bits := (b.significand.log2 : Int) + 1 + b.exponent
    searchGrids b 22 (Int.fdiv (bits * 30103) 100000 + 1)

/-! ## Writing -/

/-- How a number is laid out. -/
structure Layout where
  /-- Numbers with at most this many digits before the point are written in full. -/
  wholeDigits : Int
  /-- Numbers with fewer than this many zeros after the point are written in full. -/
  zeros : Int

/-- Writes a decimal. A number written in full has at least one digit on each side of the point;
any other has one digit before the point and a power of ten behind it. -/
def write (layout : Layout) (d : Decimal) : String :=
  let text := (toString d.digits).toList
  let point := text.length + d.exponent
  if d.digits = 0 then "0.0"
  else if 0 ≤ d.exponent ∧ point ≤ layout.wholeDigits then
    String.ofList (text ++ List.replicate d.exponent.toNat '0') ++ ".0"
  else if 0 < point ∧ point ≤ layout.wholeDigits then
    String.ofList (text.take point.toNat) ++ "." ++ String.ofList (text.drop point.toNat)
  else if -layout.zeros < point ∧ point ≤ 0 then
    "0." ++ String.ofList (List.replicate (-point).toNat '0' ++ text)
  else
    let lead := match text with
      | [] => ""
      | [c] => String.ofList [c]
      | c :: more => String.ofList (c :: '.' :: more)
    lead ++ "e" ++ toString (point - 1)

end Decimal

/-- A finite binary number as text. -/
def Decimal.render (layout : Decimal.Layout) (x : Float) : String :=
  let sign := if Text.wordSize 63 ≤ x.toBits.toNat then "-" else ""
  sign ++ Decimal.write layout (Decimal.shortest x)

end Longform
