import Longform.Markdown.Html
import Longform.Markdown.Table

/-!
# What begins a block

The openings of blocks, each recognised at a `Cursor` that has passed all
indentation. `interrupts` says when a line inside a paragraph begins something
new instead of going on with the paragraph.
-/

namespace Longform.Markdown

open Text

/-- How an item of a list is marked; items with the same kind of mark make one list. -/
inductive Marker where
  | minus
  | plus
  | star
  | dot
  | parenthesis
  deriving DecidableEq

/-- Whether the items are numbered. -/
def Marker.isNumbered : Marker → Bool
  | .dot | .parenthesis => true
  | .minus | .plus | .star => false

/-- The level of a heading: one to six. -/
structure Level where
  value : Nat
  one_le : 1 ≤ value
  le_six : value ≤ 6

/-- The beginning of a list item. -/
structure ItemStart where
  marker : Marker
  /-- The columns by which later lines of the item have to be indented. -/
  indent : Nat
  /-- The place after the mark. -/
  content : Cursor
  /-- Nothing follows the mark. -/
  isBare : Bool
  /-- The item may not interrupt a paragraph it would be part of: it is bare, or does not start
  with the number 1. -/
  isWeak : Bool

namespace Start

/-- A fence and its length: at least three backticks or tildes. Text after backticks holds no
further one. -/
def fence? (s : List Char) : Option (Char × Nat) :=
  match s with
  | [] => none
  | c :: _ =>
    let length := (s.takeWhile (· == c)).length
    if (c = '~' || (c = '`' && !(s.drop length).contains '`')) && 3 ≤ length then
      some (c, length)
    else none

/-- A thematic break: three or more of the same mark, with blanks between them, on an ended
line. -/
def isBreak (l : Line) (s : List Char) : Bool :=
  match s with
  | [] => false
  | c :: _ =>
    (c = '*' || c = '_' || c = '-') && l.isEnded && s.all (fun d => d == c || isIndent d)
      && 3 ≤ s.count c

/-- The level of a heading that begins with number signs. Something blank or the end of the line
follows them. -/
def headingLevel? (l : Line) (s : List Char) : Option Level :=
  let level := (s.takeWhile (· == '#')).length
  if h : 1 ≤ level ∧ level ≤ 6 then
    match s.drop level with
    | [] => if l.isEnded then some ⟨level, h.1, h.2⟩ else none
    | c :: _ => if isIndent c then some ⟨level, h.1, h.2⟩ else none
  else none

/-- The level of the heading that a line of equals signs or dashes makes of the paragraph
before it. -/
def underlineLevel? (l : Line) (s : List Char) : Option Level :=
  match s with
  | [] => none
  | c :: _ =>
    if l.isEnded && (s.dropWhile (· == c)).all isIndent then
      if c = '=' then some ⟨1, by decide, by decide⟩
      else if c = '-' then some ⟨2, by decide, by decide⟩
      else none
    else none

/-- The columns of blanks between the mark of an item and its content. A mark that ends its line
counts as followed by one. -/
def blanksAfterMark (isBare : Bool) (content : Cursor) : Nat := if isBare then 1 else content.indent

/-- The item that begins with a mark of `digits` further columns, `c` being the place after its
mark and `indent` the indentation before it. The content begins after the blanks that follow the
mark, unless there are more than four: then it begins after one and is code. -/
def itemAfter? (l : Line) (marker : Marker) (digits indent : Nat) (weak : Bool) (c : Cursor) :
    Option ItemStart :=
  let content := { c with indent := 0 }.passAll
  let isBare := content.rest.isEmpty && l.isEnded
  match blanksAfterMark isBare content with
  | 0 => none
  | extra + 1 =>
    let (indent, left) := if extra ≤ 3 then (extra + indent, 0) else (indent, extra)
    some { marker, indent := 2 + indent + digits, isBare, isWeak := weak || isBare,
           content := { content with indent := left } }

/-- The list item that begins at `c`. -/
def item? (l : Line) (c : Cursor) : Option ItemStart :=
  match c.rest with
  | [] => none
  | '*' :: _ => itemAfter? l .star 0 c.indent false (c.pass 1)
  | d :: s =>
    if 4 ≤ c.indent then none
    else if d = '-' then itemAfter? l .minus 0 c.indent false (c.pass 1)
    else if d = '+' then itemAfter? l .plus 0 c.indent false (c.pass 1)
    else
      let digits := ((d :: s).takeWhile Char.isDigit).length
      if 1 ≤ digits && digits ≤ 9 then
        let weak := !(d = '1' && digits = 1)
        match (d :: s).drop digits with
        | '.' :: _ => itemAfter? l .dot digits c.indent weak (c.pass (digits + 1))
        | ')' :: _ => itemAfter? l .parenthesis digits c.indent weak (c.pass (digits + 1))
        | _ => none
      else none

theorem length_itemAfter? {l : Line} {marker : Marker} {digits indent : Nat} {weak : Bool}
    {c : Cursor} {i : ItemStart} (h : itemAfter? l marker digits indent weak c = some i) :
    i.content.rest.length ≤ c.rest.length := by
  unfold itemAfter? at h
  simp only at h
  split at h
  · simp at h
  · obtain rfl := Option.some.inj h
    exact Cursor.length_passUpTo none c.column 0 c.rest

theorem length_itemAfter?_pass {l : Line} {marker : Marker} {digits indent n : Nat} {weak : Bool}
    {c : Cursor} {i : ItemStart} {d : Char} {s : List Char} (hc : c.rest = d :: s)
    (h : itemAfter? l marker digits indent weak (c.pass (n + 1)) = some i) :
    i.content.rest.length < c.rest.length := by
  have := length_itemAfter? h
  simp only [Cursor.pass, hc, List.length_drop, List.length_cons] at this ⊢
  omega

theorem length_item? {l : Line} {c : Cursor} {i : ItemStart} (h : item? l c = some i) :
    i.content.rest.length < c.rest.length := by
  unfold item? at h
  split at h
  case h_1 => simp at h
  case h_2 hc => exact length_itemAfter?_pass hc h
  case h_3 hc =>
    split at h
    · simp at h
    split at h
    · exact length_itemAfter?_pass hc h
    split at h
    · exact length_itemAfter?_pass hc h
    simp only at h
    split at h
    · split at h
      · exact length_itemAfter?_pass hc h
      · exact length_itemAfter?_pass hc h
      · simp at h
    · simp at h

end Start

/-- Whether the line `l`, which comes after a line of a paragraph inside `containers`, begins
something new. A heading underline counts when the line goes on with every container; so does, for
a weak list item, being unable to interrupt. An unfinished line of blanks ends the paragraph. -/
def interrupts (containers : List Container) (l : Line) (following : List Line) : Bool :=
  let (resumed, c) := Container.resumeAll l (Cursor.start l).passAll containers
  let c := c.passAll
  let isWithin := resumed == containers.length
  match c.rest with
  | [] => true
  | '`' :: _ | '~' :: _ => (Start.fence? c.rest).isSome
  | '>' :: _ => true
  | '#' :: _ => c.indent ≤ 3 && (Start.headingLevel? l c.rest).isSome
  | '=' :: _ => isWithin && (Start.underlineLevel? l c.rest).isSome
  | '_' :: _ => Start.isBreak l c.rest
  | '<' :: s => (Html.open? l.isEnded false s).isSome
  | d :: _ =>
    let isItem := (Start.item? l c).any fun i => !(i.isWeak && isWithin)
    if d = '*' then (Start.isBreak l c.rest && c.indent ≤ 3) || isItem
    else if d = '-' then
      c.indent ≤ 3 && ((isWithin && (Start.underlineLevel? l c.rest).isSome)
        || Start.isBreak l c.rest || isItem)
    else if d = '+' || d.isDigit then isItem
    else Table.starts containers c.rest following

end Longform.Markdown
