import Longform.Path

/-!
# Documents

A document of a vault is known by its path; `Document.name` and
`Document.basename` are the names it is linked by. Images are linked by their
file names and notes by their base names, and the extension of an address alone
says which of the two is meant.
-/

namespace Longform

/-- A document of a vault, by its path relative to the vault. -/
structure Document where
  path : String
  deriving DecidableEq, Inhabited

namespace Document

/-- The file name with its extension. -/
def name (d : Document) : String := (Path.fileName? d.path).getD ""

/-- The file name without its extension. -/
def basename (d : Document) : String := (Path.fileStem? d.path).getD ""

end Document

/-- The extensions of images. -/
def imageExtensions : List String :=
  ["png", "jpg", "jpeg", "gif", "svg", "pdf", "webp", "bmp", "tif", "tiff", "excalidraw"]

/-- Whether the file name of a path has the given extension, in any ASCII case. -/
def hasExtension (path extension : String) : Bool :=
  (Path.extension? path).any fun e => Text.eqIgnoringAsciiCase e.toList extension.toList

/-- Whether an address names an image and not a note. -/
def isImageAddress (address : String) : Bool :=
  imageExtensions.any (hasExtension address)

end Longform
