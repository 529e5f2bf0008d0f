import Longform.Text.Basic

/-!
# HTML blocks

HTML yields no block, but it hides the lines it takes. What opens it decides
what ends it: a closing mark anywhere in a line, a closing tag, or a blank line.
-/

namespace Longform.Markdown.Html

open Text

/-- What ends an HTML block. -/
inductive End where
  /-- The end of the line that holds the given mark. -/
  | mark (mark : List Char)
  /-- The end of the line that closes a tag whose content is taken as it is. -/
  | rawTag
  | blankLine

/-- The tags whose content is taken as it is. -/
def rawTags : List String := ["pre", "script", "style"]

/-- The tags that open an HTML block wherever a line begins with them. -/
def blockTags : List String := [
  "address", "article", "aside", "base", "basefont", "blockquote", "body", "caption", "center",
  "col", "colgroup", "dd", "details", "dialog", "dir", "div", "dl", "dt", "fieldset", "figcaption",
  "figure", "footer", "form", "frame", "frameset", "h1", "h2", "h3", "h4", "h5", "h6", "head",
  "header", "hr", "html", "iframe", "legend", "li", "link", "main", "menu", "menuitem", "nav",
  "noframes", "ol", "optgroup", "option", "p", "param", "section", "source", "summary", "table",
  "tbody", "td", "tfoot", "th", "thead", "title", "tr", "track", "ul"]

/-- A tag name in lowercase and the text after it. -/
def tagName (s : List Char) : String × List Char :=
  (String.ofList ((s.takeWhile Char.isAlpha).map Char.toLower), s.dropWhile Char.isAlpha)

/-- Whether a tag name may end here; `ended` says whether the line is ended. -/
def endsName (ended : Bool) : List Char → Bool
  | [] => ended
  | c :: _ => isIndent c || c = '>'

/-! ## Complete tags -/

private def isNamePart (c : Char) : Bool := c.isAlphanum || c = '-'

private def startsAttribute (c : Char) : Bool := c.isAlpha || c = '_' || c = ':'

private def isAttributePart (c : Char) : Bool :=
  c.isAlphanum || c = '_' || c = '.' || c = ':' || c = '-'

private def isBareValuePart (c : Char) : Bool :=
  !(isIndent c || c = '"' || c = '\'' || c = '=' || c = '<' || c = '>' || c = '`')

/-- The text after an attribute value. -/
def passValue : List Char → Option (List Char)
  | [] => none
  | c :: s =>
    if c = '"' || c = '\'' then
      match s.dropWhile (· ≠ c) with
      | [] => none
      | _ :: t => some t
    else if isBareValuePart c then some (s.dropWhile isBareValuePart)
    else none

/-- The text after an attribute name and the value that may follow it, and whether blanks came
last. -/
def passAttribute (s : List Char) : Option (List Char × Bool) :=
  let s := s.dropWhile isAttributePart
  let t := s.dropWhile isIndent
  match t with
  | '=' :: t => (passValue (t.dropWhile isIndent)).map (·, false)
  | _ => some (t, t.length < s.length)

/-- The text from the end of a tag on, after all its attributes. `spaced` says whether blanks came
last. `fuel` bounds the number of attributes by the length of the text. -/
def passAttributes : (fuel : Nat) → (spaced : Bool) → List Char → Option (List Char)
  | 0, _, _ => none
  | fuel + 1, spaced, s =>
    let t := s.dropWhile isIndent
    let spaced := spaced || t.length < s.length
    match t with
    | '/' :: t => some t
    | '>' :: t => some ('>' :: t)
    | c :: t =>
      if spaced && startsAttribute c then do
        let (t, spaced) ← passAttribute t
        passAttributes fuel spaced t
      else none
    | [] => none

/-- Whether a complete tag and nothing else follows a tag name; `closing` says whether the tag is
a closing one. -/
def isLoneTag (closing : Bool) (s : List Char) : Bool :=
  let s := s.dropWhile isNamePart
  let t := if closing then some (s.dropWhile isIndent) else passAttributes (s.length + 1) false s
  match t with
  | some ('>' :: t) => t.all isIndent
  | _ => false

/-! ## Opening and closing -/

/-- An HTML block that a tag opens, given the text after the angle bracket. -/
def openTag? (ended loneTags : Bool) (s : List Char) : Option (End × List Char) :=
  let closing := startsIn (· == '/') s
  let (name, t) := tagName (if closing then s.drop 1 else s)
  if name = "" then none
  else
    let selfClosed := !endsName ended t && (after? ['/', '>'] t).isSome
    if endsName ended t && !closing && rawTags.contains name then some (.rawTag, t)
    else if (endsName ended t || selfClosed) && blockTags.contains name then some (.blankLine, t)
    else if !(loneTags && ended) then none
    else if selfClosed then
      if (t.drop 2).all isIndent then some (.blankLine, []) else none
    else if isLoneTag closing t then some (.blankLine, [])
    else none

/-- The HTML block that opens with `<` and the text `s` after it: what ends it, and the text after
its opening. `ended` says whether the line is ended, and `loneTags` whether a complete tag on a
line of its own opens a block, which it does not inside a paragraph. -/
def open? (ended loneTags : Bool) (s : List Char) : Option (End × List Char) :=
  match s with
  | '?' :: t => some (.mark ['?', '>'], t)
  | '!' :: '-' :: '-' :: t => some (.mark ['-', '-', '>'], t)
  | '!' :: '[' :: 'C' :: 'D' :: 'A' :: 'T' :: 'A' :: '[' :: t => some (.mark [']', ']', '>'], t)
  | '!' :: c :: t => if c.isUpper then some (.mark ['>'], t) else none
  | _ => openTag? ended loneTags s

/-- Whether some closing tag of raw content begins in `s`. -/
def closesRaw (ended : Bool) : List Char → Bool
  | [] => false
  | c :: s =>
    (match c, s with
      | '<', '/' :: t => let (name, t) := tagName t; rawTags.contains name && endsName ended t
      | _, _ => false)
    || closesRaw ended s

/-- Whether the block ends with the line whose text is `s`. -/
def End.isIn (ended : Bool) (s : List Char) : End → Bool
  | .mark m => contains m s
  | .rawTag => closesRaw ended s
  | .blankLine => false

end Longform.Markdown.Html
