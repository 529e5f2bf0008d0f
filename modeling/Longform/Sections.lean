import Longform.Forest
import Longform.Latex.Render

/-!
# The regions of a longform note

The top level of a note falls into an abstract, a body and an appendix. A
heading titled "Abstract" or "Appendix" opens its region; when there are
several, the last one counts and the others are left out. A heading titled
"Body" gives way to the blocks it owns, one level higher. Titles are compared
as they are rendered.
-/

namespace Longform

/-- A note divided into its regions. -/
structure Sections where
  abstractHeading : Option Heading
  appendixHeading : Option Heading
  /-- The last heading titled "Body", one level higher and without its blocks. -/
  bodyHeading : Option Heading
  body : List Node

namespace Sections

/-- The rendered title of a heading without blanks at its ends, in lowercase. -/
def regionTitle (title : List Inline) : String := normalizeTitle (Latex.inlines title)

/-- The heading that a block is, when it has the given region title. -/
def titled? (wanted : String) : Node → Option Heading
  | .heading level title children =>
    if regionTitle title = wanted then some ⟨level, title, children⟩ else none
  | _ => none

/-- The last of the blocks that is a heading with the given title. -/
def lastTitled? (wanted : String) (nodes : List Node) : Option Heading :=
  (nodes.filterMap (titled? wanted)).getLast?

/-- The blocks that are not headings with the given title. -/
def withoutTitled (wanted : String) (nodes : List Node) : List Node :=
  nodes.filter fun n => (titled? wanted n).isNone

/-- What a block of the body region contributes: a heading titled "Body" what it owns, any other
block itself. -/
def openBody (node : Node) : List Node :=
  match titled? "body" node with
  | some h => Node.lower h.children
  | none => [node]

/-- Divides the top level of a note into its regions. -/
def classify (nodes : List Node) : Sections :=
  let rest := withoutTitled "appendix" (withoutTitled "abstract" nodes)
  { abstractHeading := lastTitled? "abstract" nodes
    appendixHeading := lastTitled? "appendix" nodes
    bodyHeading := (lastTitled? "body" rest).map fun h => ⟨h.level - 1, h.title, []⟩
    body := rest.flatMap openBody }

end Sections

end Longform
