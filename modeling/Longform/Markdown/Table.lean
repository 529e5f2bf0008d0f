import Longform.Markdown.Line

/-!
# Pipe tables

A line with cells between bars begins a table when the line after it is a row of
dashes with as many cells. A table yields no block.
-/

namespace Longform.Markdown.Table

open Text

/-- The number of bars of a row after its first character, and whether only blanks follow the
last one. An escaped bar does not count. -/
def scanRow (bars : Nat) (closed : Bool) (s : List Char) : Nat × Bool :=
  match s with
  | [] => (bars, closed)
  | '|' :: s => scanRow (bars + 1) true s
  | '\\' :: c :: s => if isPunctuation c then scanRow bars false s else scanRow bars false (c :: s)
  | c :: s => scanRow bars (closed && isIndent c) s
termination_by s.length

/-- The number of cells of a header row; zero when it has no bar that counts. -/
def headerCells (s : List Char) : Nat :=
  let s := match s with
    | '|' :: t => t
    | _ => s
  match scanRow 0 false s with
  | (0, _) => 0
  | (bars, closed) => if closed then bars else bars + 1

/-- The cells of a row of dashes from one cell on, `count` of them before it. Bounded by `fuel`,
the length of the row. -/
def dashCells : (fuel count : Nat) → List Char → Option Nat
  | 0, _, _ => none
  | fuel + 1, count, s =>
    match s.dropWhile isIndent with
    | '|' :: s => dashCells fuel (count + 1) s
    | s => do
      let s ← match s with
        | ':' :: '-' :: t => some ('-' :: t)
        | ':' :: _ => none
        | _ => some s
      let dashed := startsIn (· == '-') s
      let s := s.dropWhile (· == '-')
      let s ← match s with
        | ':' :: t => if dashed then some t else none
        | _ => some s
      let count := if dashed then count + 1 else count
      match s.dropWhile isIndent with
      | '|' :: s => dashCells fuel (if dashed then count else count + 1) s
      | [] => some count
      | _ => none

/-- The number of cells of a row of dashes. -/
def delimiterCells? (s : List Char) : Option Nat :=
  let s := match s with
    | '|' :: t => t
    | _ => s
  dashCells (s.length + 1) 0 s

/-- Whether a table begins with the text `s`, which stands inside the given containers, before the
lines `following`. -/
def starts (containers : List Container) (s : List Char) (following : List Line) : Bool :=
  let cells := headerCells s
  cells != 0 &&
    match following with
    | [] => false
    | l :: _ =>
      let (resumed, c) := Container.resumeAll l (Cursor.start l).passAll containers
      resumed == containers.length && l.isEnded && delimiterCells? c.passAll.rest == some cells

end Longform.Markdown.Table
