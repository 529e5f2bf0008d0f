import Longform.Document
import Longform.Inline
import Longform.Text.Lowercase

/-!
# The tree of a note

A note is a forest of nodes in which each heading owns the blocks that follow it
up to the next heading of the same or a lower level.

* `Node.flatten` lists a forest in reading order, each heading without the
  blocks it owns. The forest is a view of this list.
* `Node.rebase` and `Node.lower` shift the headings of a forest that is put
  somewhere else.
* `Node.citationKeys` and `Node.figureFiles` are the references of a forest in
  reading order.
-/

namespace Longform

/-- How the items of a list are marked. -/
inductive ListKind where
  | numbered
  | bulleted
  deriving DecidableEq

/-- A block of a note. -/
inductive Node where
  /-- A heading with the blocks it owns. -/
  | heading (level : Nat) (title : List Inline) (children : List Node)
  | paragraph (content : List Inline)
  /-- A list; each item is a sequence of blocks. -/
  | list (kind : ListKind) (items : List (List Node))
  /-- A link that stands for the content it names. -/
  | embed (link : Link)
  /-- An image, once it is found. -/
  | figure (file : Document) (caption : Option String)
  | code (language : Option String) (content : String)
  /-- A quotation, by its lines. -/
  | quote (lines : List String)
  | displayMath (text : String)
  deriving Inhabited

/-- A heading, taken out of its forest. -/
structure Heading where
  level : Nat
  title : List Inline
  children : List Node
  deriving Inhabited

namespace Heading

/-- The heading as a block. -/
def toNode (h : Heading) : Node := .heading h.level h.title h.children

/-- The title without its markup. -/
def plainTitle (h : Heading) : String := Inline.plainText h.title

end Heading

/-- The form in which titles are compared: without blanks at the ends, in lowercase. -/
def normalizeTitle (title : String) : String :=
  String.ofList (Text.lowercase (Text.trim title.toList))

/-- The title of a heading in the form in which titles are compared. -/
def Heading.normalizedTitle (h : Heading) : String := normalizeTitle h.plainTitle

namespace Node

/-! ## Reading order -/

mutual

/-- A block and all it owns, in reading order; items of lists stay whole. -/
def flattenOne : Node → List Node
  | .heading level title children => .heading level title [] :: flatten children
  | node => [node]

/-- The blocks of a forest in reading order, headings without what they own. -/
def flatten : List Node → List Node
  | [] => []
  | n :: ns => flattenOne n ++ flatten ns

end

/-! ## Shifting headings -/

mutual

/-- `rebase` for one block. -/
def rebaseOne (base ambient : Nat) : Node → Node
  | .heading level title children =>
    .heading (ambient + (level - base)) title (rebase base ambient children)
  | node => node

/-- Moves the headings of a forest from under a heading of level `base` to under one of level
`ambient`. Headings inside list items stay where they are. -/
def rebase (base ambient : Nat) : List Node → List Node
  | [] => []
  | n :: ns => rebaseOne base ambient n :: rebase base ambient ns

end

mutual

/-- `lower` for one block. -/
def lowerOne : Node → Node
  | .heading level title children => .heading (level - 1) title (lower children)
  | node => node

/-- Moves the headings of a forest up by one level. Headings inside list items stay where they
are. -/
def lower : List Node → List Node
  | [] => []
  | n :: ns => lowerOne n :: lower ns

end

/-! ## References -/

mutual

/-- The keys a block cites. -/
def keys : Node → List String
  | .heading _ title children => Inline.citationKeys title ++ citationKeys children
  | .paragraph content => Inline.citationKeys content
  | .list _ items => itemKeys items
  | .embed _ | .figure _ _ | .code _ _ | .quote _ | .displayMath _ => []

/-- The keys a forest cites, in reading order and with repetitions. -/
def citationKeys : List Node → List String
  | [] => []
  | n :: ns => keys n ++ citationKeys ns

/-- The keys the items of a list cite. -/
def itemKeys : List (List Node) → List String
  | [] => []
  | item :: items => citationKeys item ++ itemKeys items

end

mutual

/-- The image files a block shows. -/
def files : Node → List Document
  | .heading _ _ children => figureFiles children
  | .list _ items => itemFiles items
  | .figure file _ => [file]
  | .paragraph _ | .embed _ | .code _ _ | .quote _ | .displayMath _ => []

/-- The image files a forest shows, in reading order and with repetitions. -/
def figureFiles : List Node → List Document
  | [] => []
  | n :: ns => files n ++ figureFiles ns

/-- The image files the items of a list show. -/
def itemFiles : List (List Node) → List Document
  | [] => []
  | item :: items => figureFiles item ++ itemFiles items

end

end Node

end Longform
