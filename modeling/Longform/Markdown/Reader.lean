import Longform.Markdown.Block
import Longform.Markdown.Definition

/-!
# Reading blocks

A text is read line by line. A line first goes on with the containers that are
open; those it does not go on with are closed, unless it goes on with a
paragraph. Then blocks begin, one inside the other, until the line is used up.

`Reader.blocks` reads a whole text.
-/

namespace Longform.Markdown

open Text

/-- A container that is being read, with the blocks in it. -/
structure Open where
  scope : Scope
  inner : Sequence

/-- The state between two lines. -/
structure Reader where
  /-- The open containers, innermost first. -/
  opened : List Open
  top : Sequence
  leaf : Leaf

namespace Reader

/-- Nothing read yet. -/
def start : Reader := ⟨[], .empty, .none⟩

/-- The open containers, outermost first. -/
def containers (r : Reader) : List Container := (r.opened.map (·.scope.container)).reverse

/-- Changes the sequence inside the innermost container. -/
def inside (f : Sequence → Sequence) (r : Reader) : Reader :=
  match r.opened with
  | [] => { r with top := f r.top }
  | o :: outer => { r with opened := { o with inner := f o.inner } :: outer }

/-- Changes the innermost container itself. -/
def innermost (f : Scope → Scope) (r : Reader) : Reader :=
  match r.opened with
  | [] => r
  | o :: outer => { r with opened := { o with scope := f o.scope } :: outer }

/-- Adds a finished block. -/
def add (b : Block) (r : Reader) : Reader := r.inside (·.add b)

/-- Marks the innermost container as begun by a block that is still being read. -/
def begin (leaf : Leaf) (r : Reader) : Reader :=
  { (r.innermost Scope.begin).inside Sequence.interrupt with leaf }

/-- Marks the innermost container as begun by a block that is complete. -/
def beginWith (b : Block) (r : Reader) : Reader := (r.innermost Scope.begin).add b

/-- A line that belongs to all open containers. -/
def record (l : Line) (r : Reader) : Reader :=
  { r with opened := r.opened.map fun o => { o with scope := o.scope.record l } }

/-! ## Closing -/

/-- Closes the leaf block. `carried` is what the line that ends it has used for the open
containers, which a code block keeps; a fenced one does so if the line went on with any. -/
def closeLeaf (carried : List Char) (isInside : Bool) (r : Reader) : Reader :=
  let closed := { r with leaf := .none }
  match r.leaf with
  | .paragraph source => closed.add (.paragraph source.reverse.flatten)
  | .indented source _ => closed.add (.indented (carried :: source).reverse.flatten)
  | .fenced _ _ info content =>
    let content := if isInside && !content.isEmpty then carried :: content else content
    closed.add (.fenced info content.reverse.flatten)
  | .none | .html _ | .table _ | .definition _ _ => closed

/-- Closes the innermost container. -/
def closeInnermost (r : Reader) : Reader :=
  match r.opened with
  | [] => r
  | o :: outer => { r with opened := outer }.inside (o.scope.finish o.inner.toList)

/-- Closes the `n` innermost containers. -/
def closeContainers : (n : Nat) → Reader → Reader
  | 0, r => r
  | n + 1, r => closeContainers n r.closeInnermost

/-- The blocks of the text that has been read. -/
def finish (r : Reader) : List Block :=
  let r := r.closeLeaf [] false
  (closeContainers r.opened.length r).top.toList

/-! ## Beginning -/

/-- A blank line. An item that begins with two blank lines ends. -/
def blankLine (r : Reader) : Reader :=
  let r := r.inside Sequence.interrupt
  match r.opened with
  | { scope := .item marker indent .fresh, inner } :: outer =>
    { r with opened := { scope := .item marker indent .oneBlankLine, inner } :: outer }
  | { scope := .item marker indent .oneBlankLine, inner } :: outer =>
    { r with opened := { scope := .item marker indent .started, inner } :: outer }.closeInnermost
  | _ => r

/-- The lines after a line of a paragraph that go on with it, without the marks of containers. -/
def continuation (containers : List Container) : List Line → List (List Char)
  | [] => []
  | l :: ls =>
    if interrupts containers l ls then []
    else (Container.resumeAll l (Cursor.start l) containers).2.rest :: continuation containers ls

/-- Begins a paragraph, or the definition that stands where it would begin. -/
def beginParagraph (r : Reader) (l : Line) (s : List Char) (following : List Line) : Reader :=
  let paragraph := r.begin (.paragraph [s ++ l.ending])
  if startsIn (· == '[') s then
    let run := s :: continuation r.containers following
    match Definition.lines? run with
    | some n => r.begin (.definition (n - 1) (n < run.length))
    | none => paragraph
  else paragraph

/-- The text after the box of a task, when more than the box stands there. -/
def afterTaskBox? (s : List Char) : Option (List Char) :=
  match s with
  | '[' :: c :: ']' :: d :: t =>
    if (c = ' ' || c = '\t' || c = 'x' || c = 'X') && isIndent d && !t.all isIndent then some t
    else none
  | _ => none

/-- Begins a fenced code block. The opening fence of an unfinished last line counts only with some
text after it. -/
def beginFence (r : Reader) (l : Line) (s : List Char) (fence : Char) (length : Nat) : Reader :=
  let info := s.drop length
  if !l.isEnded && (trim info).isEmpty then r.begin .none
  else r.begin (.fenced fence length info [])

/-- Begins the blocks that open at `c` in the line `l`. -/
def beginAt (r : Reader) (l : Line) (following : List Line) (c : Cursor) : Reader :=
  let unread := c.rest
  let d := c.passAll
  match _h : d.rest with
  | [] =>
    if l.isEnded then r.blankLine
    else if 4 ≤ d.indent then r.begin (.indented [unread] true)
    else r
  | m :: s =>
    if 4 ≤ d.indent then r.begin (.indented [unread ++ l.ending] true)
    else if Start.isBreak l d.rest then r.begin .none
    else if m = '>' then
      let r := r.begin .none
      let quote : Open := ⟨.quote [m :: s ++ l.ending], .empty⟩
      beginAt { r with opened := quote :: r.opened } l following d.passQuoteMark
    else
      match _hi : Start.item? l d with
      | some i =>
        let r := r.innermost Scope.begin
        let item : Open := ⟨.item i.marker i.indent .fresh, .empty⟩
        let r := { r with opened := item :: r.opened, leaf := .none }
        let isTable := Table.starts r.containers i.content.rest following
        match if isTable || i.content.indent != 0 then none else afterTaskBox? i.content.rest with
        | some t => r.begin (.paragraph [t ++ l.ending])
        | none => beginAt r l following i.content
      | none =>
        match Start.fence? d.rest with
        | some (fence, length) => r.beginFence l d.rest fence length
        | none =>
          match if m = '#' then Start.headingLevel? l d.rest else none with
          | some level => r.beginWith (.heading level (d.rest.drop level.value))
          | none =>
            match if m = '<' then Html.open? l.isEnded true s else none with
            | some (stop, t) =>
              r.begin (if stop.isIn l.isEnded t then .none else .html stop)
            | none =>
              if !startsIn (fun x => "`~*_>#=+-<".toList.contains x || x.isDigit) d.rest
                  && Table.starts r.containers d.rest following then
                r.begin (.table false)
              else r.beginParagraph l d.rest following
termination_by c.rest.length
decreasing_by
  · have := Cursor.length_passUpTo none c.column c.indent c.rest
    have hq : d.passQuoteMark.rest.length < d.rest.length := by
      simp only [Cursor.passQuoteMark, Cursor.pass, _h, List.drop_succ_cons, List.drop_zero]
      split
      · simp
      · split <;> grind
    exact Nat.lt_of_lt_of_le hq this
  · have := Cursor.length_passUpTo none c.column c.indent c.rest
    exact Nat.lt_of_lt_of_le (Start.length_item? _hi) this

/-! ## Going on -/

/-- Where a fence closes in the text of a line: the text before it, when the line ends with a long
enough fence. Less than four columns of blanks right before the fence belong to it. -/
def closingFence? (l : Line) (fence : Char) (length indent : Nat) (s : List Char) :
    Option (List Char) :=
  let run := (s.reverse.takeWhile (· == fence)).length
  if l.isEnded && length ≤ run then
    let before := s.take (s.length - run)
    let bare := dropEndWhile isIndent before
    let blanks := before.drop bare.length
    some (if indent + blanks.length < 4 then bare else before)
  else none

/-- A line that goes on with all containers, when the innermost block is a fenced code block. The
first line of its content comes without what the containers used of it. -/
def resumeFenced (r : Reader) (l : Line) (c : Cursor) (fence : Char) (length : Nat)
    (info : List Char) (content : List (List Char)) : Reader :=
  let used := if content.isEmpty then [] else l.text.take (l.text.length - c.rest.length)
  match closingFence? l fence length c.indent c.rest with
  | some before =>
    { r with leaf := .none }.add (.fenced info ((used ++ before) :: content).reverse.flatten)
  | none => { r with leaf := .fenced fence length info ((used ++ c.rest ++ l.ending) :: content) }

/-- Reads one line; `following` are the lines after it. -/
def step (r : Reader) (l : Line) (following : List Line) : Reader :=
  let isLoose := match r.leaf with
    | .paragraph _ => !interrupts r.containers l following
    | .definition further isLoose => further != 0 || isLoose
    | _ => false
  let (resumed, c) := Container.resumeAll l (Cursor.start l) r.containers
  let isWithin := resumed == r.containers.length
  if isLoose then
    let r := r.record l
    match r.leaf with
    | .paragraph source => { r with leaf := .paragraph (l.raw :: source) }
    | .definition (n + 1) isLoose => { r with leaf := .definition n isLoose }
    | _ => beginAt { r with leaf := .none } l following c
  else if !isWithin then
    let used := l.text.take (l.text.length - c.rest.length)
    let r := r.closeLeaf used (resumed != 0)
    let r := closeContainers (r.opened.length - resumed) r
    beginAt (r.record l) l following c
  else
    let r := r.record l
    let d := c.passAll
    match r.leaf with
    | .fenced fence length info content => r.resumeFenced l c fence length info content
    | .html stop =>
      let isOver := match stop with
        | .blankLine => d.rest.isEmpty && l.isEnded
        | _ => stop.isIn l.isEnded c.rest
      if isOver then { r with leaf := .none } else r
    | .table false => { r with leaf := .table true }
    | .table true =>
      if interrupts r.containers l following then beginAt { r with leaf := .none } l following c
      else r
    | .indented source isOpen =>
      let e := if isOpen then c.passIndent 4 else c
      if d.rest.isEmpty && l.isEnded then { r with leaf := .indented (l.raw :: source) false }
      else if 4 ≤ d.indent then { r with leaf := .indented (l.raw :: source) true }
      else
        let used := l.text.take (l.text.length - e.rest.length)
        beginAt (r.closeLeaf used true) l following e
    | .paragraph source =>
      match if 4 ≤ d.indent then none else Start.underlineLevel? l d.rest with
      | some level => { r with leaf := .none }.add (.underlined level source.reverse.flatten)
      | none => beginAt (r.closeLeaf [] true) l following c
    | _ => beginAt { r with leaf := .none } l following c

/-- Reads lines one after another. -/
def readAll : (r : Reader) → List Line → Reader
  | r, [] => r
  | r, l :: ls => readAll (r.step l ls) ls

/-! ## Whole texts -/

/-- Whether a line is three times the character `c` and blanks. -/
def isMetadataRule (c : Char) (s : List Char) : Bool :=
  match after? [c, c, c] s with
  | some t => t.all isIndent
  | none => false

/-- The lines after the rule that closes a block of metadata. -/
def afterMetadata? (c : Char) : List Line → Option (List Line)
  | [] => none
  | l :: ls => if l.isEnded && isMetadataRule c l.text then some ls else afterMetadata? c ls

/-- The lines after the block of metadata they begin with, if they do. -/
def withoutMetadata (lines : List Line) : List Line :=
  match lines with
  | [] => []
  | l :: ls =>
    let c := (Cursor.start l).passAll
    let rule? := ['-', '+'].find? fun m => isMetadataRule m c.rest
    match if l.isEnded && c.indent ≤ 3 then rule? else none with
    | some m => (afterMetadata? m ls).getD lines
    | none => lines

/-- An unfinished line that is all there is cannot be told to be a heading when it is short: fewer
than ten bytes, and no punctuation after the number signs. -/
def isLostHeading (lines : List Line) : Bool :=
  match lines with
  | [l] =>
    let s := (Cursor.start l).passAll.rest
    !l.isEnded && startsIn (· == '#') s && (Start.headingLevel? l s).isSome
      && (String.ofList l.text).utf8ByteSize < 10
      && !(s.dropWhile (· == '#')).any isPunctuation
  | _ => false

/-- The blocks of a text. A byte order mark at its beginning does not count. -/
def blocks (s : List Char) : List Block :=
  let s := (after? ['\ufeff'] s).getD s
  let lines := Line.split s
  if isLostHeading lines then [] else (readAll start (withoutMetadata lines)).finish

end Reader

end Longform.Markdown
