import Longform.Latex.Command
import Longform.Latex.Escape
import Longform.Node

/-!
# Rendering

The LaTeX of a forest whose embeds have been resolved. Blocks are written one
after another, so the rendering of a forest is the concatenation of the
renderings of its trees.
-/

namespace Longform.Latex

/-! ## Inline text -/

mutual

/-- A span as LaTeX. -/
def span : Inline → String
  | .text s => escape s
  | .emphasis inner => command "emph" (inlines inner)
  | .strong inner => command "textbf" (inlines inner)
  | .code s => command "texttt" (escape s)
  | .math s => "$" ++ s ++ "$"
  | .citation keys => command "cite" (Inline.joinWith "," keys)
  | .link l => escape l.shown

/-- Inline text as LaTeX. -/
def inlines : List Inline → String
  | [] => ""
  | i :: is => span i ++ inlines is

end

/-! ## Blocks -/

/-- The sectioning command of a heading level. Levels below the last command share it. -/
def sectionCommand : Nat → String
  | 0 | 1 => "section"
  | 2 => "subsection"
  | 3 => "subsubsection"
  | 4 => "paragraph"
  | _ => "subparagraph"

/-- The environment of a list. -/
def listEnvironment : ListKind → String
  | .numbered => "enumerate"
  | .bulleted => "itemize"

/-- A string without the blanks at its end. -/
def withoutTrailingBlanks (s : String) : String := String.ofList (Text.trimEnd s.toList)

/-- A figure as LaTeX. -/
def figure (file : Document) (caption : Option String) : String :=
  environment "figure" "[h]"
    ("\\centering\n" ++ commandLine "includegraphics[width=\\textwidth]" file.name
      ++ caption.elim "" fun c => commandLine "caption" (escape c))

/-- A code block as LaTeX. -/
def verbatim (content : String) : String :=
  environment "verbatim" "" (if content = "" then "" else content ++ "\n")

/-- A quotation as LaTeX comments. -/
def comments (lines : List String) : String :=
  String.join (lines.map fun line => "% " ++ line ++ "\n")

mutual

/-- A block as LaTeX. -/
def block : Node → String
  | .heading level title children =>
    commandLine (sectionCommand level) (inlines title) ++ render children
  | .paragraph content => inlines content ++ "\n\n"
  | .list kind entries => environment (listEnvironment kind) "" (items entries)
  | .embed link => "% embed: " ++ link.address ++ "\n"
  | .figure file caption => figure file caption
  | .code _ content => verbatim content
  | .quote lines => comments lines
  | .displayMath text => environment "equation*" "" (text ++ "\n")

/-- A forest as LaTeX. -/
def render : List Node → String
  | [] => ""
  | n :: ns => block n ++ render ns

/-- The items of a list as LaTeX. -/
def items : List (List Node) → String
  | [] => ""
  | item :: more => "\\item " ++ withoutTrailingBlanks (render item) ++ "\n" ++ items more

end

/-- The title of a heading as LaTeX. -/
def title (h : Heading) : String := inlines h.title

end Longform.Latex
