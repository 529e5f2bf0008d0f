import Longform.Link

/-!
# Inline text

The spans of a paragraph, a list item or a heading title.

* `Inline.plainText` is what is left when the markup is taken away; headings are
  compared by it.
* `Inline.citationKeys` lists the works a text cites, in reading order.
-/

namespace Longform

/-- A span of running text. -/
inductive Inline where
  | text (text : String)
  | emphasis (inner : List Inline)
  | strong (inner : List Inline)
  | code (text : String)
  | math (text : String)
  /-- A citation of one or more works: `[@key; @other]`. -/
  | citation (keys : List String)
  | link (link : Link)
  deriving Inhabited

namespace Inline

/-- Strings set one after another with a separator between them. -/
def joinWith (separator : String) (parts : List String) : String :=
  String.intercalate separator parts

mutual

/-- A span without its markup. -/
def plain : Inline → String
  | .text s => s
  | .code s => s
  | .math s => s
  | .emphasis inner => plainText inner
  | .strong inner => plainText inner
  | .citation keys => "[" ++ joinWith "; " (keys.map ("@" ++ ·)) ++ "]"
  | .link l => l.shown

/-- A text without its markup. -/
def plainText : List Inline → String
  | [] => ""
  | i :: is => plain i ++ plainText is

end

mutual

/-- The keys a span cites. -/
def keys : Inline → List String
  | .citation keys => keys
  | .emphasis inner => citationKeys inner
  | .strong inner => citationKeys inner
  | .text _ | .code _ | .math _ | .link _ => []

/-- The keys a text cites, in order and with repetitions. -/
def citationKeys : List Inline → List String
  | [] => []
  | i :: is => keys i ++ citationKeys is

end

end Inline

end Longform
