import Longform.FrontMatter
import Longform.Latex.Command
import Longform.Resolver

/-!
# Manuscripts

A manuscript is what an export makes of a longform note: its front matter and
the LaTeX of its regions. It is written as a document of its own, or its regions
are joined to be pasted into another one.
-/

namespace Longform

/-- How a document of its own is set up, and how deeply embeds are followed. -/
structure ExportOptions where
  documentClass : String
  bibliography : String
  /-- The file that every document reads in first. -/
  headerInput : String
  maxEmbedDepth : Option Nat
  deriving DecidableEq

/-- The options where nothing else is asked for. -/
def ExportOptions.standard : ExportOptions :=
  ⟨"article", "bibliography.bib", "header", none⟩

/-- The regions of a note as LaTeX. -/
structure Manuscript where
  frontMatter : FrontMatter
  abstractText : Option String
  body : String
  appendix : Option String
  references : References
  deriving Inhabited

namespace Manuscript

open Latex

/-- The abstract in its environment; nothing when there is none. -/
def abstractPart (m : Manuscript) : String := m.abstractText.elim "" (environment "abstract" "")

/-- The appendix under its heading; nothing when there is none. -/
def appendixPart (m : Manuscript) : String :=
  m.appendix.elim "" fun text => "\\appendix\n" ++ commandLine "section" "Appendix" ++ text

/-- The commands before the text of a document of its own. Front matter is not escaped. -/
def preamble (m : Manuscript) (preambleFile : Option String) (options : ExportOptions) : String :=
  commandLine "documentclass" options.documentClass
    ++ commandLine "input" options.headerInput
    ++ preambleFile.elim "" (commandLine "input")
    ++ commandLine "addbibresource" options.bibliography
    ++ commandLine "title" ((m.frontMatter.get? "title").getD "")
    ++ (m.frontMatter.get? "author").elim "" (commandLine "author")

/-- A manuscript as a document of its own. -/
def standalone (m : Manuscript) (preambleFile : Option String) (options : ExportOptions) : String :=
  m.preamble preambleFile options
    ++ commandLine "begin" "document" ++ "\\maketitle\n"
    ++ m.abstractPart ++ m.body ++ "\\printbibliography\n" ++ m.appendixPart
    ++ command "end" "document"

/-- The regions of a manuscript one after another. -/
def joined (m : Manuscript) : String :=
  m.abstractPart ++ m.body
    ++ m.appendix.elim "" (fun _ => "\\printbibliography\n") ++ m.appendixPart

end Manuscript

end Longform
