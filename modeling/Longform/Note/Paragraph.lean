import Longform.Node

/-!
# Paragraphs of a note

What the grammar of blocks takes for one paragraph may hold several blocks of a
note: a line that is an embed stands for itself, and a paragraph between double
dollar signs is display math.
-/

namespace Longform.Note

open Text

/-- The lines of a source that are not blank, without the blanks at their ends. -/
def trimmedLines (source : List Char) : List (List Char) :=
  ((lines source).map trim).filter (!·.isEmpty)

/-- Text that is to be read as inline text later. -/
def rawText (s : List Char) : List Inline := [.text (String.ofList s)]

/-- The formula of a paragraph that is display math. -/
def displayMath? (source : List Char) : Option String := do
  let rest ← after? ['$', '$'] source
  let inner ← before? ['$', '$'] rest
  let formula := trim inner
  if formula.isEmpty || contains ['$', '$'] formula then none else some (String.ofList formula)

/-- A paragraph of the given lines, unless there are none. -/
def textParagraph (run : List (List Char)) : List Node :=
  match run with
  | [] => []
  | l :: ls => [.paragraph (rawText (List.intercalate ['\n'] (l :: ls)))]

/-- The lines before the first embed, and the blocks from there on. -/
def splitLines : List (List Char) → List (List Char) × List Node
  | [] => ([], [])
  | l :: ls =>
    let (run, blocks) := splitLines ls
    match Link.parseLine? l with
    | some link => ([], .embed link :: textParagraph run ++ blocks)
    | none => (l :: run, blocks)

/-- The blocks of a paragraph, its text unread. -/
def paragraphBlocks (source : List Char) : List Node :=
  let ls := trimmedLines source
  match displayMath? (List.intercalate ['\n'] ls) with
  | some formula => [.displayMath formula]
  | none =>
    let (run, blocks) := splitLines ls
    textParagraph run ++ blocks

end Longform.Note
