import Longform.Text.Basic

/-!
# Links between notes

A link names a document, perhaps one heading inside it, and perhaps the text to
show in its place: `address#heading|label`. The same form stands inside
`[[...]]`, where it is shown, and inside `![[...]]` on a line of its own, where
it is replaced by what it names.

`Link.parse?` reads a link and `Link.render` writes one.
-/

namespace Longform

/-- A link to a document: `address#heading|label`. -/
structure Link where
  /-- The name of a note, or the file name of an image, with or without folders before it. -/
  address : String
  /-- The heading whose section is meant; without one the whole document is. -/
  heading : Option String
  /-- The text shown in place of the link. -/
  label : Option String
  deriving DecidableEq, Inhabited

namespace Link

open Text

/-- A text that may be left out, blanks at its ends dropped; blank text counts as left out. -/
def part? (s : List Char) : Option String :=
  match trim s with
  | [] => none
  | c :: cs => some (String.ofList (c :: cs))

/-- Reads the inside of `[[...]]`. The label starts at the first bar and the heading at the first
number sign before it; a block mark `^...` ends the heading, or the address where no heading
follows. Nothing is read when the address is blank. -/
def parse? (inner : List Char) : Option Link :=
  let (target, label) := match cut? ['|'] inner with
    | some (target, label) => (target, part? label)
    | none => (inner, none)
  let (address, heading) := match cut? ['#'] target with
    | some (address, heading) => (address, part? (heading.takeWhile (· ≠ '^')))
    | none => (target.takeWhile (· ≠ '^'), none)
  (part? address).map fun address => { address, heading, label }

/-- Reads a line that holds `![[...]]` and nothing else. -/
def parseLine? (line : List Char) : Option Link := do
  let rest ← after? ['!', '[', '['] (trim line)
  let inner ← before? [']', ']'] rest
  if contains [']', ']'] inner || contains ['[', '['] inner then none else parse? inner

/-- Writes a link the way `parse?` reads it, leaving out the parts it lacks. -/
def render (link : Link) : String :=
  link.address ++ (link.heading.elim "" ("#" ++ ·)) ++ (link.label.elim "" ("|" ++ ·))

/-- What is shown for a link: its label, else its heading, else its address. -/
def shown (link : Link) : String :=
  (link.label <|> link.heading).getD link.address

end Link

end Longform
