import Longform.Inline.Scan
import Longform.Markdown.Reader
import Longform.Note.Paragraph

/-!
# From blocks to nodes

The blocks of a Markdown text as nodes of a note. `blocks` leaves the text of
paragraphs and titles unread, as a single span, and `readInline` reads it.
-/

namespace Longform.Note

open Text Markdown

/-! ## Blocks -/

/-- A title without the number signs that may close it. They count only after a blank. -/
def withoutClosingSigns (title : List Char) : List Char :=
  let bare := dropEndWhile (· == '#') title
  if bare.length < title.length && (bare.isEmpty || endsIn isBlank bare) then trimEnd bare
  else title

/-- The title of a heading from its source. A title over several lines becomes one line. -/
def titleText (source : List Char) : List Char :=
  List.intercalate [' '] (trimmedLines source)

/-- A fenced code block. Code in the language "math" is display math. -/
def fencedCode (info content : List Char) : Node :=
  let language := (words info).head?
  let content := dropEndWhile (· == '\n') content
  if language.any fun l => eqIgnoringAsciiCase l "math".toList then
    .displayMath (String.ofList (trim content))
  else .code (language.map String.ofList) (String.ofList content)

/-- A line of indented code without its indentation. -/
def withoutIndent (line : List Char) : List Char :=
  match after? [' ', ' ', ' ', ' '] line with
  | some rest => rest
  | none => (after? ['\t'] line).getD (trimStart line)

/-- An indented code block. -/
def indentedCode (source : List Char) : Node :=
  let content := List.intercalate ['\n'] ((lines source).map withoutIndent)
  .code none (String.ofList (dropEndWhile (· == '\n') content))

/-- A line of a quotation without its mark and one space after it. -/
def withoutQuoteMark (line : List Char) : List Char :=
  let line := trimStart line
  let line := (after? ['>'] line).getD line
  (after? [' '] line).getD line

/-- The lines of a quotation, blank ones at its end left out. -/
def quoteLines (source : List Char) : List (List Char) :=
  (((lines source).map withoutQuoteMark).reverse.dropWhile fun l => l.all isBlank).reverse

mutual

/-- The nodes of one block. -/
def ofBlock : Block → List Node
  | .heading level title =>
    [.heading level.value (rawText (withoutClosingSigns (titleText title))) []]
  | .underlined level title => [.heading level.value (rawText (titleText title)) []]
  | .paragraph source => paragraphBlocks source
  | .list marker items =>
    [.list (if marker.isNumbered then .numbered else .bulleted) (ofItems items)]
  | .quote source => [.quote ((quoteLines source).map String.ofList)]
  | .fenced info content => [fencedCode info content]
  | .indented source => [indentedCode source]

/-- The nodes of blocks in order. -/
def ofBlocks : List Block → List Node
  | [] => []
  | b :: bs => ofBlock b ++ ofBlocks bs

/-- The items of a list. -/
def ofItems : List (List Block) → List (List Node)
  | [] => []
  | item :: items => ofBlocks item :: ofItems items

end

/-- The blocks of a Markdown text, without a forest and with all inline text unread. -/
def blocks (markdown : String) : List Node := ofBlocks (Reader.blocks markdown.toList)

/-! ## Inline text -/

/-- Reads text that is unread. -/
def readRaw : List Inline → List Inline
  | [.text s] => Inline.parse s
  | spans => spans

mutual

/-- Reads the inline text of one block. -/
def readInlineOne : Node → Node
  | .heading level title children => .heading level (readRaw title) (readInline children)
  | .paragraph content => .paragraph (readRaw content)
  | .list kind items => .list kind (readInlineItems items)
  | node => node

/-- Reads the inline text of a forest. -/
def readInline : List Node → List Node
  | [] => []
  | n :: ns => readInlineOne n :: readInline ns

/-- Reads the inline text of the items of a list. -/
def readInlineItems : List (List Node) → List (List Node)
  | [] => []
  | item :: items => readInline item :: readInlineItems items

end

end Longform.Note
