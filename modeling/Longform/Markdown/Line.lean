import Longform.Text.Basic

/-!
# Lines and indentation

Blocks are recognised line by line. A line ends with a line feed, a carriage
return, or both; the last line of a text may lack an end, and then some blocks
are not recognised in it.

Indentation is counted in columns: a tab reaches to the next multiple of four.
A `Cursor` stands in a line and knows how much indentation it has passed that
nothing has used yet, because a container may use up only a part of a tab.
-/

namespace Longform.Markdown

open Text

/-- A line of a text and the characters that end it, none for an unfinished last line. -/
structure Line where
  text : List Char
  ending : List Char

namespace Line

/-- The line as it stands in the text. -/
def raw (l : Line) : List Char := l.text ++ l.ending

/-- Whether the line is ended. -/
def isEnded (l : Line) : Bool := !l.ending.isEmpty

/-- A character put before the first of some lines. -/
def cons (c : Char) : List Line → List Line
  | [] => [⟨[c], []⟩]
  | l :: ls => { l with text := c :: l.text } :: ls

/-- The lines of a text. -/
def split : List Char → List Line
  | [] => []
  | '\r' :: '\n' :: s => ⟨[], ['\r', '\n']⟩ :: split s
  | '\r' :: s => ⟨[], ['\r']⟩ :: split s
  | '\n' :: s => ⟨[], ['\n']⟩ :: split s
  | c :: s => cons c (split s)

end Line

/-- A place in a line. -/
structure Cursor where
  /-- The characters of the line from here on. -/
  rest : List Char
  /-- The column, modulo four. -/
  column : Nat
  /-- The indentation that has been passed and not used. -/
  indent : Nat

namespace Cursor

/-- The beginning of a line. -/
def start (l : Line) : Cursor := ⟨l.text, 0, 0⟩

/-- The column after a character. -/
def columnAfter (column : Nat) (c : Char) : Nat := if c = '\t' then 0 else (column + 1) % 4

/-- The number of columns a character takes. -/
def width (column : Nat) (c : Char) : Nat := if c = '\t' then 4 - column else 1

/-- Passes indentation, as long as less than `enough` of it is unused. -/
def passUpTo (enough : Option Nat) (column indent : Nat) : (rest : List Char) → Cursor
  | [] => ⟨[], column, indent⟩
  | c :: s =>
    if isIndent c && enough.all (indent < ·) then
      passUpTo enough (columnAfter column c) (indent + width column c) s
    else ⟨c :: s, column, indent⟩

/-- Passes indentation until `n` columns are unused. -/
def passIndent (n : Nat) (c : Cursor) : Cursor := passUpTo (some n) c.column c.indent c.rest

/-- Passes all indentation. -/
def passAll (c : Cursor) : Cursor := passUpTo none c.column c.indent c.rest

/-- Passes `n` characters that are not tabs and forgets unused indentation. -/
def pass (n : Nat) (c : Cursor) : Cursor := ⟨c.rest.drop n, (c.column + n) % 4, 0⟩

theorem length_passUpTo (enough : Option Nat) (column indent : Nat) (s : List Char) :
    (passUpTo enough column indent s).rest.length ≤ s.length := by
  fun_induction passUpTo enough column indent s with
  | case1 => simp
  | case2 => simp only [List.length_cons]; omega
  | case3 => simp

/-- The place after the quotation mark `>` that stands here. One column of indentation belongs to
the mark. -/
def passQuoteMark (c : Cursor) : Cursor :=
  let c := c.pass 1
  match c.rest with
  | [] => c
  | d :: s =>
    if isIndent d then ⟨s, columnAfter c.column d, width c.column d - 1⟩ else c

end Cursor

/-- A block that holds other blocks and has a mark at the beginning of its lines. -/
inductive Container where
  | quote
  /-- A list item whose content is indented by at least so many columns. -/
  | item (indent : Nat)

namespace Container

/-- Whether a line goes on with what a container holds, and the place after the mark of the
container. A line of blanks goes on with any list item. The second component is how far the line
was looked at in either case. -/
def resume (l : Line) (c : Cursor) : Container → Bool × Cursor
  | .quote =>
    let c := c.passAll
    match c.rest with
    | '>' :: _ => (true, c.passQuoteMark)
    | _ => (false, c)
  | .item n =>
    let c := c.passIndent n
    if n ≤ c.indent then (true, { c with indent := c.indent - n })
    else if c.rest.isEmpty && l.isEnded then (true, { c with indent := 0 })
    else (false, c)

/-- The number of containers, outermost first, that a line goes on with, and the place after their
marks. -/
def resumeAll (l : Line) (c : Cursor) : List Container → Nat × Cursor
  | [] => (0, c)
  | k :: ks =>
    match k.resume l c with
    | (true, c) => let (n, c) := resumeAll l c ks; (n + 1, c)
    | (false, c) => (0, c)

end Container

end Longform.Markdown
