import Longform.Markdown.Start

/-!
# Blocks

The blocks of a Markdown text, with the text of each as it stands in the source.
Headings do not own anything yet, the text of paragraphs and headings is not
taken apart, and quotations are kept as text. Thematic breaks, HTML, tables and
link definitions are not blocks here: they only end what comes before them.
-/

namespace Longform.Markdown

/-- A block of a text. -/
inductive Block where
  /-- A heading that begins with number signs. -/
  | heading (level : Level) (title : List Char)
  /-- A heading made of a paragraph by the line under it. -/
  | underlined (level : Level) (title : List Char)
  | paragraph (source : List Char)
  | list (marker : Marker) (items : List (List Block))
  | quote (source : List Char)
  /-- A code block between fences, with the text after the opening fence. -/
  | fenced (info content : List Char)
  | indented (source : List Char)

/-- The blocks read so far at one level of nesting. -/
structure Sequence where
  /-- The blocks, last first. -/
  blocks : List Block
  /-- The last block is a list, and nothing has come after its last item. -/
  isGrowing : Bool

namespace Sequence

/-- No blocks. -/
def empty : Sequence := ⟨[], false⟩

/-- The sequence with one more block. -/
def add (s : Sequence) (b : Block) : Sequence := ⟨b :: s.blocks, false⟩

/-- The sequence after something that is no block. -/
def interrupt (s : Sequence) : Sequence := { s with isGrowing := false }

/-- The sequence with one more list item, which joins the list before it when the marks agree. -/
def addItem (s : Sequence) (marker : Marker) (item : List Block) : Sequence :=
  match s with
  | ⟨.list last items :: blocks, true⟩ =>
    if last = marker then ⟨.list marker (items ++ [item]) :: blocks, true⟩
    else ⟨.list marker [item] :: .list last items :: blocks, true⟩
  | ⟨blocks, _⟩ => ⟨.list marker [item] :: blocks, true⟩

/-- The blocks in reading order. -/
def toList (s : Sequence) : List Block := s.blocks.reverse

end Sequence

/-- How far a list item has come. An item that begins with two blank lines is over. -/
inductive ItemStage where
  | fresh
  | oneBlankLine
  | started
  deriving DecidableEq

/-- A container that is being read. -/
inductive Scope where
  | item (marker : Marker) (indent : Nat) (stage : ItemStage)
  /-- A quotation, with its lines so far, last first. -/
  | quote (lines : List (List Char))

namespace Scope

/-- The container. -/
def container : Scope → Container
  | .item _ indent _ => .item indent
  | .quote _ => .quote

/-- The container after a line that belongs to it. -/
def record (l : Line) : Scope → Scope
  | .quote lines => .quote (l.raw :: lines)
  | s => s

/-- The container after the beginning of a block in it. -/
def begin : Scope → Scope
  | .item marker indent _ => .item marker indent .started
  | s => s

/-- The sequence around a container with the finished container, whose blocks are `inner`. An item
that its line broke off in has no content and does not count. -/
def finish (s : Scope) (inner : List Block) (outer : Sequence) : Sequence :=
  match s with
  | .item _ _ .fresh => outer
  | .item marker _ _ => outer.addItem marker inner
  | .quote lines => outer.add (.quote lines.reverse.flatten)

end Scope

/-- What a line may go on with inside the innermost container. Sources are kept as lists of
pieces, last first. -/
inductive Leaf where
  | none
  | paragraph (source : List (List Char))
  /-- Indented code; `isOpen` says whether the last line was not blank. -/
  | indented (source : List (List Char)) (isOpen : Bool)
  | fenced (fence : Char) (length : Nat) (info : List Char) (content : List (List Char))
  | html (stop : Html.End)
  /-- A table; `isWhole` says whether the row of dashes has been passed. -/
  | table (isWhole : Bool)
  /-- A link definition that takes further lines, or was followed by a line that no container has
  to go on with. -/
  | definition (further : Nat) (isLoose : Bool)

end Longform.Markdown
