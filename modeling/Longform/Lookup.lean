import Longform.Document
import Longform.Text.Lowercase

/-!
# Looking up documents

How the address of a link names a document. An address names a note by its base
name or an image by its file name; the path of the folder that the document lies
in must end in the text before the last slash. Among several documents the first
one is taken, and for notes each further one is worth a warning.
-/

namespace Longform

/-- What a search for an address brought. -/
structure Lookup where
  found : Option Document
  warnings : List String

namespace Lookup

open Text

/-- The folders before the last slash of an address, if it has one, and what follows it. Slashes at
the beginning do not count. -/
def parts (address : String) : Option (List Char) × List Char :=
  let bare := address.toList.dropWhile (· == '/')
  match cutLast? '/' bare with
  | some (folders, leaf) => (some folders, leaf)
  | none => (none, bare)

/-- Whether a document is called `leaf`: an image by its file name, a note by its base name. -/
def matchesLeaf (d : Document) (image : Bool) (leaf : List Char) : Bool :=
  if image then eqIgnoringAsciiCase d.name.toList leaf
  else hasExtension d.name "md" && eqIgnoringAsciiCase d.basename.toList leaf

/-- Whether the folder of a document ends in the given text, up to case. -/
def matchesFolders (d : Document) (folders : List Char) : Bool :=
  (Path.parent? d.path).any fun parent =>
    let slashed := parent.toList.map fun c => if c == '\\' then '/' else c
    (before? (lowercase folders) (lowercase slashed)).isSome

/-- Whether an address names a document. -/
def matchesAddress (address : String) (image : Bool) (d : Document) : Bool :=
  let (folders, leaf) := parts address
  matchesLeaf d image leaf && folders.all (matchesFolders d)

/-- The warning that an address names nothing. -/
def missingWarning (address : String) : String := "File not found: " ++ address

/-- The warning that an address names another document as well. -/
def repeatedWarning (address : String) (other : Document) : String :=
  "Multiple files found with the same name '" ++ address
    ++ "'. Returning the first one found. Additional file found has path: " ++ other.path

/-- Searches a list of documents. -/
def search (address : String) (documents : List Document) : Lookup :=
  let image := isImageAddress address
  match documents.filter (matchesAddress address image) with
  | [] => ⟨none, [missingWarning address]⟩
  | first :: others => ⟨some first, if image then [] else others.map (repeatedWarning address)⟩

end Lookup

end Longform
