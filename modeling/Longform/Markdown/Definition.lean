import Longform.Text.Basic

/-!
# Link definitions

A paragraph may begin with definitions of the form `[label]: destination "title"`,
which yield no block. A definition may run over several lines; its title is taken
in when it is complete, and otherwise begins a paragraph.
-/

namespace Longform.Markdown.Definition

open Text

/-- The text `s` after the character `c`. A backslash takes the punctuation character it makes
literal with it. -/
def passEscaped (c : Char) (s : List Char) : List Char :=
  match s with
  | d :: t => if c = '\\' ∧ isPunctuation d then t else d :: t
  | [] => []

theorem length_passEscaped (c : Char) (s : List Char) : (passEscaped c s).length ≤ s.length := by
  unfold passEscaped
  split
  · split <;> simp
  · simp

/-- The text after the first unescaped `close`, when no unescaped character that `refuses` accepts
comes before it. -/
def passTo (close : Char) (refuses : Char → Bool) (s : List Char) : Option (List Char) :=
  match s with
  | [] => none
  | c :: t =>
    if c = close then some t
    else if refuses c then none
    else passTo close refuses (passEscaped c t)
termination_by s.length
decreasing_by
  have := length_passEscaped c t
  simp only [List.length_cons]
  omega

/-- The text after a bare destination: everything up to a blank, with parentheses in pairs.
`depth` is the number of open ones. -/
def passBare (depth : Nat) (s : List Char) : Option (List Char) :=
  match s with
  | [] => if depth = 0 then some [] else none
  | c :: t =>
    if isIndent c || c = '\n' then (if depth = 0 then some (c :: t) else none)
    else if c = '(' then passBare (depth + 1) t
    else if c = ')' then (if depth = 0 then none else passBare (depth - 1) t)
    else passBare depth (passEscaped c t)
termination_by s.length
decreasing_by
  · simp
  · simp
  · have := length_passEscaped c t
    simp only [List.length_cons]
    omega

/-- The text after a destination. -/
def passDestination : List Char → Option (List Char)
  | [] => none
  | '<' :: s => passTo '>' (fun c => c = '<' || c = '\n') s
  | c :: s => if isIndent c || c = '\n' then none else passBare 0 (c :: s)

/-- The text after a title. -/
def passTitle : List Char → Option (List Char)
  | '"' :: s => passTo '"' (fun _ => false) s
  | '\'' :: s => passTo '\'' (fun _ => false) s
  | '(' :: s => passTo ')' (· = '(') s
  | _ => none

/-- The text after blanks, at most one line end, and blanks. -/
def passSpace (s : List Char) : List Char :=
  match s.dropWhile isIndent with
  | '\n' :: t => t.dropWhile isIndent
  | t => t

/-- The text after the end of a line that holds nothing more. -/
def passLineEnd (s : List Char) : Option (List Char) :=
  match s.dropWhile isIndent with
  | [] => some []
  | '\n' :: t => some t
  | _ => none

/-- The text after a label in brackets. What looks like the box of a task is no label. -/
def passLabel : List Char → Option (List Char)
  | '[' :: c :: ']' :: s =>
    if c = ' ' || c = '\t' || c = 'x' || c = 'X' || c = '[' || c = ']' then none else some s
  | '[' :: ']' :: _ => none
  | '[' :: s => passTo ']' (· = '[') s
  | _ => none

/-- The text after a definition. -/
def pass (s : List Char) : Option (List Char) := do
  let s ← passLabel (s.dropWhile isIndent)
  let s ← after? [':'] s
  let s ← passDestination (passSpace s)
  let titled := do
    if (passSpace s).length = s.length then none else
      let t ← passTitle (passSpace s)
      passLineEnd t
  titled <|> passLineEnd s

/-- The number of lines that the definition at the beginning of some lines takes. -/
def lines? (run : List (List Char)) : Option Nat :=
  let text := List.intercalate ['\n'] run
  (pass text).map fun rest =>
    let taken := text.take (text.length - rest.length)
    let ends := taken.count '\n'
    if rest.isEmpty && !endsIn (· == '\n') taken then ends + 1 else ends

end Longform.Markdown.Definition
