import Longform.Forest
import Longform.FrontMatter
import Longform.Note.Blocks

/-!
# Notes

A note is its front matter and the forest of its blocks. Reading one can fail
only because its front matter does.
-/

namespace Longform

/-- A note as it has been read. -/
structure Note where
  frontMatter : FrontMatter
  body : List Node
  deriving Inhabited

namespace Note

/-- The forest of a Markdown text. -/
def forest (markdown : String) : List Node := readInline (Node.nest (blocks markdown))

/-- Reads a note. -/
def parse (text : String) : Except Error Note := do
  let (frontMatter, body) ← FrontMatter.split text
  .ok ⟨frontMatter, forest body⟩

end Note

end Longform
