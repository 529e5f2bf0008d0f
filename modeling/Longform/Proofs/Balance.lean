import Longform.Latex.Render
import Longform.Proofs.Folders

/-!
# Balance of rendered text

What is rendered closes every brace and every environment that it opens, however
blocks are nested and whatever stands in the literal text. Only the strings that
are copied as they are (`Node.raws`) could break this, by a backslash or a brace
of their own.

* `depthAfter?` and `marks` read a text: its braces, and the commands that begin
  and end environments or start items.
* `Reads` is what lets texts be put after one another: a text is read alike
  whatever follows it. `Settled` keeps this when the blanks at the end are taken
  away, as they are from the items of a list.
* `settled_render`: rendered text is settled, and its marks are those of the forest.
-/

namespace Longform

namespace Latex

open Text (isBlank trimEnd)

/-! ## Braces -/

/-- The depth in braces at the end of a text, when it begins at depth `d`; none when a brace is
closed that is not open. The character after a backslash is never a brace. -/
def depthAfter? : (d : Nat) → (s : List Char) → Option Nat
  | d, [] => some d
  | d, '\\' :: _ :: s => depthAfter? d s
  | d, '{' :: s => depthAfter? (d + 1) s
  | 0, '}' :: _ => none
  | d + 1, '}' :: s => depthAfter? d s
  | d, _ :: s => depthAfter? d s

/-! ## Environments and items -/

/-- A command that shapes the text around it. -/
inductive Mark where
  | begins (environment : String)
  | ends (environment : String)
  | item
  deriving DecidableEq

/-- The argument in braces that a text begins with. -/
def argument? (s : List Char) : Option String := do
  let inside ← Text.after? ['{'] s
  let (argument, _) ← Text.cut? ['}'] inside
  some (String.ofList argument)

/-- The mark that a backslash before `s` makes; the name of a command is as long as letters
follow. -/
def mark? (s : List Char) : Option Mark :=
  let name := s.takeWhile Char.isAlpha
  let rest := s.dropWhile Char.isAlpha
  if name = "begin".toList then (argument? rest).map .begins
  else if name = "end".toList then (argument? rest).map .ends
  else if name = "item".toList then some .item
  else none

/-- The marks of a text, in order. -/
def marks : (s : List Char) → List Mark
  | [] => []
  | '\\' :: c :: s => (mark? (c :: s)).toList ++ marks s
  | _ :: s => marks s

/-- The environments that are open after some marks, the innermost first, when `stack` is open
before them; none when one is ended that is not the innermost. -/
def openAfter? : (stack : List String) → (ms : List Mark) → Option (List String)
  | stack, [] => some stack
  | stack, .begins name :: ms => openAfter? (name :: stack) ms
  | [], .ends _ :: _ => none
  | top :: stack, .ends name :: ms => if name = top then openAfter? stack ms else none
  | stack, .item :: ms => openAfter? stack ms

/-- The environment that a mark begins. -/
def Mark.begun? : Mark → Option String
  | .begins name => some name
  | .ends _ | .item => none

/-- The environment that a mark ends. -/
def Mark.ended? : Mark → Option String
  | .ends name => some name
  | .begins _ | .item => none

/-! ## Plain characters -/

/-- The character is no backslash and no brace. -/
def IsPlain (c : Char) : Prop := c ≠ '\\' ∧ c ≠ '{' ∧ c ≠ '}'

instance (c : Char) : Decidable (IsPlain c) :=
  inferInstanceAs (Decidable (c ≠ '\\' ∧ c ≠ '{' ∧ c ≠ '}'))

/-- There is no backslash and no brace in a string. -/
def Plain (s : String) : Prop := ∀ c ∈ s.toList, IsPlain c

instance (s : String) : Decidable (Plain s) := List.decidableBAll IsPlain s.toList

theorem depthAfter?_cons {c : Char} (plain : IsPlain c) (d : Nat) (s : List Char) :
    depthAfter? d (c :: s) = depthAfter? d s := by
  obtain ⟨noCommand, noOpening, noClosing⟩ := plain
  rw [depthAfter?]
  · intro _ _ same
    exact absurd same noCommand
  · exact noOpening
  · intro _ same
    exact absurd same noClosing
  · intro _ _ same
    exact absurd same noClosing

theorem depthAfter?_append {s : List Char} (plain : ∀ c ∈ s, IsPlain c) (d : Nat)
    (rest : List Char) : depthAfter? d (s ++ rest) = depthAfter? d rest := by
  induction s with
  | nil => rfl
  | cons c s ih =>
    rw [List.forall_mem_cons] at plain
    rw [List.cons_append, depthAfter?_cons plain.1, ih plain.2]

theorem marks_cons {c : Char} (noCommand : c ≠ '\\') (s : List Char) :
    marks (c :: s) = marks s := by
  rw [marks]
  intro _ _ same
  exact absurd same noCommand

theorem marks_append {s : List Char} (plain : ∀ c ∈ s, IsPlain c) (rest : List Char) :
    marks (s ++ rest) = marks rest := by
  induction s with
  | nil => rfl
  | cons c s ih =>
    rw [List.forall_mem_cons] at plain
    rw [List.cons_append, marks_cons plain.1.1, ih plain.2]

theorem isPlain_of_isBlank {c : Char} (blank : isBlank c = true) : IsPlain c := by
  refine ⟨?_, ?_, ?_⟩ <;> rintro rfl <;> cases blank

/-! ## Texts read by themselves -/

/-- Whatever follows it, a text leaves the depth in braces as it was and has the marks `ms`. -/
structure Reads (s : String) (ms : List Mark) : Prop where
  depth : ∀ d rest, depthAfter? d (s.toList ++ rest) = depthAfter? d rest
  marks : ∀ rest, marks (s.toList ++ rest) = ms ++ marks rest

variable {s t : String} {ms ns : List Mark}

theorem Reads.empty : Reads "" [] := ⟨fun _ _ => rfl, fun _ => rfl⟩

theorem Reads.append (left : Reads s ms) (right : Reads t ns) : Reads (s ++ t) (ms ++ ns) := by
  constructor
  · intro d rest
    rw [String.toList_append, List.append_assoc, left.depth, right.depth]
  · intro rest
    rw [String.toList_append, List.append_assoc, left.marks, right.marks, List.append_assoc]

/-- A text that is read by itself has the depth and the marks it is read with. -/
theorem Reads.whole (reads : Reads s ms) :
    depthAfter? 0 s.toList = some 0 ∧ Latex.marks s.toList = ms := by
  have depth := reads.depth 0 []
  have marks := reads.marks []
  rw [List.append_nil] at depth marks
  rw [depth, marks]
  exact ⟨rfl, List.append_nil ms⟩

theorem Plain.reads (plain : Plain s) : Reads s [] :=
  ⟨fun d rest => depthAfter?_append plain d rest, fun rest => marks_append plain rest⟩

/-! ## Texts without the blanks at their end -/

/-- A text without the blanks at its end is read by itself, with the marks `ms`. -/
def Settled (s : String) (ms : List Mark) : Prop := Reads (withoutTrailingBlanks s) ms

theorem exists_blanks (s : String) :
    ∃ blanks, s = withoutTrailingBlanks s ++ String.ofList blanks ∧
      ∀ c ∈ blanks, isBlank c = true := by
  refine ⟨(s.toList.reverse.takeWhile isBlank).reverse, ?_, ?_⟩
  · have split := congrArg List.reverse
      (List.takeWhile_append_dropWhile (p := isBlank) (l := s.toList.reverse))
    rw [List.reverse_append, List.reverse_reverse] at split
    rw [withoutTrailingBlanks, ← String.ofList_append]
    exact (String.ofList_toList (s := s)).symm.trans (congrArg String.ofList split.symm)
  · intro c mem
    exact List.all_eq_true.1 List.all_takeWhile c (List.mem_reverse.1 mem)

theorem withoutTrailingBlanks_append (s t : String) :
    withoutTrailingBlanks (s ++ t) =
      if withoutTrailingBlanks t = "" then withoutTrailingBlanks s
      else s ++ withoutTrailingBlanks t := by
  simp only [withoutTrailingBlanks, trimEnd, Text.dropEndWhile, String.toList_append,
    List.reverse_append, List.dropWhile_append, List.isEmpty_iff]
  by_cases blank : t.toList.reverse.dropWhile isBlank = []
  · simp [blank]
  · simp [blank, String.ofList_append]

/-- The blanks that are taken away change nothing. -/
theorem Settled.reads (settled : Settled s ms) : Reads s ms := by
  obtain ⟨blanks, whole, blank⟩ := exists_blanks s
  have plain : Plain (String.ofList blanks) := by
    intro c mem
    rw [String.toList_ofList] at mem
    exact isPlain_of_isBlank (blank c mem)
  rw [whole, ← List.append_nil ms]
  exact Reads.append settled plain.reads

theorem Plain.settled (plain : Plain s) : Settled s [] := by
  obtain ⟨blanks, whole, _⟩ := exists_blanks s
  refine Plain.reads fun c mem => plain c ?_
  rw [whole, String.toList_append]
  exact List.mem_append_left _ mem

/-- A text may be put before one that is settled and not blank. -/
theorem Reads.settled_append (left : Reads s ms) (right : Settled t ns)
    (nonblank : withoutTrailingBlanks t ≠ "") : Settled (s ++ t) (ms ++ ns) := by
  rw [Settled, withoutTrailingBlanks_append, if_neg nonblank]
  exact left.append right

theorem Settled.append (left : Settled s ms) (right : Settled t ns) :
    Settled (s ++ t) (ms ++ ns) := by
  by_cases blank : withoutTrailingBlanks t = ""
  · have none : ns = [] := by
      rw [Settled, blank] at right
      exact right.whole.2.symm
    rw [Settled, withoutTrailingBlanks_append, if_pos blank, none, List.append_nil]
    exact left
  · exact left.reads.settled_append right blank

/-! ## Literal text -/

theorem settled_escapeChar (c : Char) : Settled (String.ofList (escapeChar c)) [] := by
  unfold escapeChar
  split
  case h_15 noCommand _ _ _ _ _ noOpening noClosing _ _ _ _ _ _ =>
    apply Plain.settled
    intro x mem
    rw [String.toList_ofList, List.mem_singleton] at mem
    subst mem
    exact ⟨noCommand, noOpening, noClosing⟩
  all_goals exact ⟨fun _ _ => rfl, fun _ => rfl⟩

/-- Whatever literal text says, it opens and closes nothing. -/
theorem settled_escape (s : String) : Settled (escape s) [] := by
  rw [escape]
  induction s.toList with
  | nil => exact .empty
  | cons c cs ih =>
    rw [List.flatMap_cons, String.ofList_append]
    exact (settled_escapeChar c).append ih

/-! ## Commands and environments -/

theorem toList_command_append (name argument : String) (rest : List Char) :
    (command name argument).toList ++ rest =
      '\\' :: (name.toList ++ '{' :: (argument.toList ++ '}' :: rest)) := by
  have backslash : "\\".toList = ['\\'] := rfl
  have opening : "\x7b".toList = ['{'] := rfl
  have closing : "\x7d".toList = ['}'] := rfl
  simp [command, backslash, opening, closing]

theorem withoutTrailingBlanks_command (name argument : String) :
    withoutTrailingBlanks (command name argument) = command name argument := by
  rw [command, withoutTrailingBlanks_append]
  exact if_neg (by decide)

/-- A command is settled when its argument is read by itself. Its own marks are `own`. -/
theorem settled_command {name argument : String} (own : List Mark)
    (depth : ∀ d rest, depthAfter? d ('\\' :: (name.toList ++ '{' :: rest)) =
      depthAfter? (d + 1) rest)
    (first : ∀ rest, marks ('\\' :: (name.toList ++ '{' :: (argument.toList ++ '}' :: rest))) =
      own ++ marks (argument.toList ++ '}' :: rest))
    (reads : Reads argument ms) : Settled (command name argument) (own ++ ms) := by
  rw [Settled, withoutTrailingBlanks_command]
  constructor
  · intro d rest
    rw [toList_command_append, depth, reads.depth]
    rfl
  · intro rest
    rw [toList_command_append, first, reads.marks, List.append_assoc]
    rfl

/-- The name of a command, with the backslash before it and the brace after it, opens that brace
and makes no mark. -/
structure Opens (name : String) : Prop where
  depth : ∀ d rest, depthAfter? d ('\\' :: (name.toList ++ '{' :: rest)) = depthAfter? (d + 1) rest
  marks : ∀ rest, marks ('\\' :: (name.toList ++ '{' :: rest)) = marks rest

theorem opens_sectionCommand (level : Nat) : Opens (sectionCommand level) := by
  unfold sectionCommand
  split <;> exact ⟨fun _ _ => rfl, fun _ => rfl⟩

theorem Opens.settled {name argument : String} (opens : Opens name) (reads : Reads argument ms) :
    Settled (command name argument) ms :=
  settled_command [] opens.depth (fun _ => opens.marks _) reads

theorem Plain.argument? {name : String} (plain : Plain name) (rest : List Char) :
    argument? ('{' :: (name.toList ++ '}' :: rest)) = some name := by
  have noClosing : '}' ∉ name.toList := fun mem => (plain _ mem).2.2 rfl
  rw [Latex.argument?]
  change (Text.cut? ['}'] (name.toList ++ '}' :: rest)).bind _ = _
  rw [Text.cut?_append noClosing]
  exact congrArg some String.ofList_toList

theorem Plain.settled_begin {name : String} (plain : Plain name) :
    Settled (command "begin" name) [.begins name] := by
  refine settled_command [.begins name] (fun _ _ => rfl) (fun rest => ?_) plain.reads
  change ((Latex.argument? ('{' :: (name.toList ++ '}' :: rest))).map Mark.begins).toList ++ _ = _
  rw [plain.argument?]
  rfl

theorem Plain.settled_end {name : String} (plain : Plain name) :
    Settled (command "end" name) [.ends name] := by
  refine settled_command [.ends name] (fun _ _ => rfl) (fun rest => ?_) plain.reads
  change ((Latex.argument? ('{' :: (name.toList ++ '}' :: rest))).map Mark.ends).toList ++ _ = _
  rw [plain.argument?]
  rfl

theorem plain_lineEnd : Plain "\n" := by
  decide

theorem Settled.line (settled : Settled s ms) : Settled (s ++ "\n") ms := by
  rw [← List.append_nil ms]
  exact settled.append plain_lineEnd.settled

theorem withoutTrailingBlanks_commandLine (name argument : String) :
    withoutTrailingBlanks (commandLine name argument) = command name argument := by
  rw [commandLine, withoutTrailingBlanks_append, withoutTrailingBlanks_command]
  exact if_pos (by decide)

theorem command_ne_empty (name argument : String) : command name argument ≠ "" := by
  intro empty
  have chars := toList_command_append name argument []
  rw [empty] at chars
  cases chars

/-- The marks of an environment around a text with the marks `ms`. -/
def around (name : String) (ms : List Mark) : List Mark := .begins name :: (ms ++ [.ends name])

theorem settled_environment {name options body : String} (plainName : Plain name)
    (plainOptions : Plain options) (reads : Reads body ms) :
    Settled (environment name options body) (around name ms) := by
  have begins := plainName.settled_begin
  have ends : Settled (commandLine "end" name) [.ends name] := plainName.settled_end.line
  -- The body need not be settled: the line that ends the environment is not blank.
  have before := (begins.append plainOptions.settled).line.reads.append reads
  refine before.settled_append ends ?_
  rw [withoutTrailingBlanks_commandLine]
  exact command_ne_empty _ _

/-! ## Inline text -/

end Latex

namespace Inline

mutual

/-- The strings of a span that are written as they are. -/
def raws : Inline → List String
  | .emphasis inner | .strong inner => allRaws inner
  | .math s => [s]
  | .citation keys => keys
  | .text _ | .code _ | .link _ => []

/-- The strings of inline text that are written as they are. -/
def allRaws : List Inline → List String
  | [] => []
  | i :: is => raws i ++ allRaws is

end

end Inline

namespace Latex

theorem plain_joinWith {keys : List String} (plain : ∀ key ∈ keys, Plain key) :
    Plain (Inline.joinWith "," keys) := by
  intro c mem
  by_cases comma : c = ','
  · subst comma
    decide
  · apply Decidable.byContradiction
    intro marked
    rw [Inline.joinWith, String.toList_intercalate] at mem
    refine Text.notMem_intercalate comma ?_ mem
    intro piece among
    obtain ⟨key, inKeys, rfl⟩ := List.mem_map.1 among
    exact fun inKey => marked (plain key inKeys c inKey)

mutual

theorem settled_span (i : Inline) (plain : ∀ raw ∈ i.raws, Plain raw) : Settled (span i) [] := by
  match i with
  | .text s => exact settled_escape s
  | .emphasis inner =>
    exact Opens.settled ⟨fun _ _ => rfl, fun _ => rfl⟩ (settled_inlines inner plain).reads
  | .strong inner =>
    exact Opens.settled ⟨fun _ _ => rfl, fun _ => rfl⟩ (settled_inlines inner plain).reads
  | .code s => exact Opens.settled ⟨fun _ _ => rfl, fun _ => rfl⟩ (settled_escape s).reads
  | .math s =>
    have dollar : Settled "$" [] := Plain.settled (by decide)
    exact (dollar.append (plain s (List.mem_singleton_self s)).settled).append dollar
  | .citation keys =>
    exact Opens.settled ⟨fun _ _ => rfl, fun _ => rfl⟩ (plain_joinWith plain).reads
  | .link l => exact settled_escape l.shown

theorem settled_inlines (is : List Inline) (plain : ∀ raw ∈ Inline.allRaws is, Plain raw) :
    Settled (inlines is) [] := by
  match is with
  | [] => exact .empty
  | i :: is =>
    rw [Inline.allRaws, List.forall_mem_append] at plain
    rw [inlines]
    exact (settled_span i plain.1).append (settled_inlines is plain.2)

end

/-! ## Blocks -/

end Latex

namespace Node

mutual

/-- A block and the blocks it holds, in reading order. -/
def allBlocksOne : Node → List Node
  | .heading level title children => .heading level title children :: allBlocks children
  | .list kind items => .list kind items :: allItemBlocks items
  | n => [n]

/-- The blocks of a forest at any depth, those in list items too, in reading order. -/
def allBlocks : List Node → List Node
  | [] => []
  | n :: ns => allBlocksOne n ++ allBlocks ns

/-- The blocks in the items of a list. -/
def allItemBlocks : List (List Node) → List Node
  | [] => []
  | item :: items => allBlocks item ++ allItemBlocks items

end

theorem mem_allBlocksOne (n : Node) : n ∈ n.allBlocksOne := by
  cases n <;> exact List.mem_cons_self ..

/-- The strings of a block itself that are written as they are. -/
def raws : Node → List String
  | .heading _ title _ => Inline.allRaws title
  | .paragraph content => Inline.allRaws content
  | .list _ _ => []
  | .embed link => [link.address]
  | .figure file _ => [file.name]
  | .code _ content => [content]
  | .quote lines => lines
  | .displayMath text => [text]

/-- The environment that a block is written as. -/
def environment? : Node → Option String
  | .list kind _ => some (Latex.listEnvironment kind)
  | .figure _ _ => some "figure"
  | .code _ _ => some "verbatim"
  | .displayMath _ => some "equation*"
  | .heading _ _ _ | .paragraph _ | .embed _ | .quote _ => none

/-- The items that a block has if it is a list. -/
def listItems : Node → List (List Node)
  | .list _ items => items
  | _ => []

end Node

namespace Latex

mutual

/-- The marks of a block. -/
def blockMarks : Node → List Mark
  | .heading _ _ children => forestMarks children
  | .list kind entries => around (listEnvironment kind) (itemMarks entries)
  | .figure _ _ => around "figure" []
  | .code _ _ => around "verbatim" []
  | .displayMath _ => around "equation*" []
  | .paragraph _ | .embed _ | .quote _ => []

/-- The marks of a forest. -/
def forestMarks : List Node → List Mark
  | [] => []
  | n :: ns => blockMarks n ++ forestMarks ns

/-- The marks of the items of a list. -/
def itemMarks : List (List Node) → List Mark
  | [] => []
  | item :: more => .item :: (forestMarks item ++ itemMarks more)

end

theorem plain_listEnvironment (kind : ListKind) : Plain (listEnvironment kind) := by
  cases kind <;> decide

theorem settled_figure (file : Document) (caption : Option String) (plain : Plain file.name) :
    Settled (figure file caption) (around "figure" []) := by
  refine settled_environment (by decide) (by decide) (Settled.reads ?_)
  have centering : Settled "\\centering\n" [] := ⟨fun _ _ => rfl, fun _ => rfl⟩
  have image : Settled (commandLine "includegraphics[width=\\textwidth]" file.name) [] :=
    (Opens.settled ⟨fun _ _ => rfl, fun _ => rfl⟩ plain.reads).line
  refine (centering.append image).append ?_
  cases caption with
  | none => exact .empty
  | some c => exact (Opens.settled ⟨fun _ _ => rfl, fun _ => rfl⟩ (settled_escape c).reads).line

theorem settled_verbatim (content : String) (plain : Plain content) :
    Settled (verbatim content) (around "verbatim" []) := by
  refine settled_environment (by decide) (by decide) (Settled.reads ?_)
  split
  · exact .empty
  · exact plain.settled.line

theorem settled_comments (lines : List String) (plain : ∀ line ∈ lines, Plain line) :
    Settled (comments lines) [] := by
  rw [comments]
  induction lines with
  | nil => exact .empty
  | cons line lines ih =>
    rw [List.forall_mem_cons] at plain
    have lead : Settled "% " [] := Plain.settled (by decide)
    rw [List.map_cons, String.join_cons]
    exact (lead.append plain.1.settled).line.append (ih plain.2)

mutual

theorem settled_block (n : Node) (plain : ∀ b ∈ n.allBlocksOne, ∀ raw ∈ b.raws, Plain raw) :
    Settled (block n) (blockMarks n) := by
  have own := plain n n.mem_allBlocksOne
  match n with
  | .heading level title children =>
    rw [Node.allBlocksOne, List.forall_mem_cons] at plain
    have title := (opens_sectionCommand level).settled (settled_inlines title own).reads
    rw [block, blockMarks]
    exact title.line.append (settled_render children plain.2)
  | .paragraph content =>
    have blankLine : Settled "\n\n" [] := Plain.settled (by decide)
    rw [block, blockMarks]
    exact (settled_inlines content own).append blankLine
  | .list kind entries =>
    rw [Node.allBlocksOne, List.forall_mem_cons] at plain
    rw [block, blockMarks]
    exact settled_environment (plain_listEnvironment kind) (by decide) (reads_items entries plain.2)
  | .embed link =>
    have lead : Settled "% embed: " [] := Plain.settled (by decide)
    rw [block, blockMarks]
    exact (lead.append (own link.address (List.mem_singleton_self _)).settled).line
  | .figure file caption =>
    rw [block, blockMarks]
    exact settled_figure file caption (own file.name (List.mem_singleton_self _))
  | .code language content =>
    rw [block, blockMarks]
    exact settled_verbatim content (own content (List.mem_singleton_self _))
  | .quote lines =>
    rw [block, blockMarks]
    exact settled_comments lines own
  | .displayMath text =>
    have body := (own text (List.mem_singleton_self _)).settled.line
    rw [block, blockMarks]
    exact settled_environment (by decide) (by decide) body.reads

theorem settled_render (forest : List Node)
    (plain : ∀ b ∈ Node.allBlocks forest, ∀ raw ∈ b.raws, Plain raw) :
    Settled (render forest) (forestMarks forest) := by
  match forest with
  | [] => exact .empty
  | n :: ns =>
    rw [Node.allBlocks, List.forall_mem_append] at plain
    rw [render, forestMarks]
    exact (settled_block n plain.1).append (settled_render ns plain.2)

theorem reads_items (entries : List (List Node))
    (plain : ∀ b ∈ Node.allItemBlocks entries, ∀ raw ∈ b.raws, Plain raw) :
    Reads (items entries) (itemMarks entries) := by
  match entries with
  | [] => exact .empty
  | item :: more =>
    rw [Node.allItemBlocks, List.forall_mem_append] at plain
    have start : Reads "\\item " [.item] := ⟨fun _ _ => rfl, fun _ => rfl⟩
    -- The command before the text needs a blank to end its name, so an item is not settled itself.
    have text : Reads (withoutTrailingBlanks (render item)) (forestMarks item) :=
      settled_render item plain.1
    have whole := ((start.append text).append plain_lineEnd.reads).append (reads_items more plain.2)
    rw [List.append_nil, List.append_assoc] at whole
    rw [items, itemMarks]
    exact whole

end

/-! ## The marks of a forest -/

/-- The environments that are begun and ended by `ms` are those of `blocks`, one in another, and the
items are those of `blocks` and `loose` others. -/
structure Outlines (ms : List Mark) (blocks : List Node) (loose : Nat) : Prop where
  nested : ∀ stack rest, openAfter? stack (ms ++ rest) = openAfter? stack rest
  begun : ms.filterMap Mark.begun? = blocks.filterMap Node.environment?
  ended : (ms.filterMap Mark.ended?).Perm (blocks.filterMap Node.environment?)
  items : ms.count .item = loose + (blocks.flatMap Node.listItems).length

namespace Outlines

variable {a b : List Node} {m n : Nat}

theorem nil : Outlines [] [] 0 := ⟨fun _ _ => rfl, rfl, .refl _, rfl⟩

theorem item : Outlines [.item] [] 1 := ⟨fun _ _ => rfl, rfl, .refl _, rfl⟩

theorem append (left : Outlines ms a m) (right : Outlines ns b n) :
    Outlines (ms ++ ns) (a ++ b) (m + n) := by
  constructor
  · intro stack rest
    rw [List.append_assoc, left.nested, right.nested]
  · rw [List.filterMap_append, List.filterMap_append, left.begun, right.begun]
  · rw [List.filterMap_append, List.filterMap_append]
    exact left.ended.append right.ended
  · rw [List.count_append, List.flatMap_append, List.length_append, left.items, right.items]
    omega

/-- A block that is no environment adds nothing to the marks of what it holds. -/
theorem cons {block : Node} (inner : Outlines ms a 0) (none : block.environment? = none)
    (noItems : block.listItems = []) : Outlines ms (block :: a) 0 := by
  constructor
  · exact inner.nested
  · rw [List.filterMap_cons_none none, inner.begun]
  · rw [List.filterMap_cons_none none]
    exact inner.ended
  · rw [List.flatMap_cons, noItems, List.nil_append, inner.items]

/-- A block that is an environment puts its own around what it holds. -/
theorem around {block : Node} {name : String} (inner : Outlines ms a block.listItems.length)
    (some : block.environment? = some name) : Outlines (around name ms) (block :: a) 0 := by
  constructor
  · intro stack rest
    rw [Latex.around, List.cons_append, List.append_assoc, openAfter?, inner.nested]
    exact if_pos rfl
  · rw [List.filterMap_cons_some some, ← inner.begun]
    simp [Latex.around, Mark.begun?]
  · rw [List.filterMap_cons_some some]
    have own : (Latex.around name ms).filterMap Mark.ended? =
        ms.filterMap Mark.ended? ++ [name] := by
      simp [Latex.around, List.filterMap_cons, Mark.ended?]
    rw [own]
    exact (List.perm_append_singleton name _).trans (inner.ended.cons name)
  · rw [List.flatMap_cons, List.length_append]
    simp [Latex.around, inner.items]

end Outlines

mutual

theorem outlines_block (n : Node) : Outlines (blockMarks n) n.allBlocksOne 0 := by
  match n with
  | .heading level title children =>
    rw [blockMarks, Node.allBlocksOne]
    exact (outlines_forest children).cons rfl rfl
  | .list kind entries =>
    rw [blockMarks, Node.allBlocksOne]
    exact (outlines_items entries).around rfl
  | .figure file caption => exact Outlines.nil.around rfl
  | .code language content => exact Outlines.nil.around rfl
  | .displayMath text => exact Outlines.nil.around rfl
  | .paragraph content => exact Outlines.nil.cons rfl rfl
  | .embed link => exact Outlines.nil.cons rfl rfl
  | .quote lines => exact Outlines.nil.cons rfl rfl

theorem outlines_forest (forest : List Node) :
    Outlines (forestMarks forest) (Node.allBlocks forest) 0 := by
  match forest with
  | [] => exact .nil
  | n :: ns =>
    rw [forestMarks, Node.allBlocks]
    exact (outlines_block n).append (outlines_forest ns)

theorem outlines_items (entries : List (List Node)) :
    Outlines (itemMarks entries) (Node.allItemBlocks entries) entries.length := by
  match entries with
  | [] => exact .nil
  | item :: more =>
    have whole := (Outlines.item.append (outlines_forest item)).append (outlines_items more)
    rw [List.nil_append, Nat.add_zero, Nat.add_comm] at whole
    rw [itemMarks, Node.allItemBlocks]
    exact whole

end

/-- What a forest is rendered as closes each brace that it opens and no other, and ends each
environment inside the one it was begun in. Every list, code block, display formula and figure is
one environment, and every item of a list starts once. -/
theorem render_balanced (forest : List Node)
    (plain : ∀ b ∈ Node.allBlocks forest, ∀ raw ∈ b.raws, Plain raw) :
    depthAfter? 0 (render forest).toList = some 0 ∧
      openAfter? [] (marks (render forest).toList) = some [] ∧
      (marks (render forest).toList).filterMap Mark.begun? =
        (Node.allBlocks forest).filterMap Node.environment? ∧
      ((marks (render forest).toList).filterMap Mark.ended?).Perm
        ((Node.allBlocks forest).filterMap Node.environment?) ∧
      (marks (render forest).toList).count .item =
        ((Node.allBlocks forest).flatMap Node.listItems).length := by
  obtain ⟨depth, read⟩ := (settled_render forest plain).reads.whole
  have outlines := outlines_forest forest
  rw [read]
  refine ⟨depth, ?_, outlines.begun, outlines.ended, ?_⟩
  · have nested := outlines.nested [] []
    rwa [List.append_nil] at nested
  · rw [outlines.items, Nat.zero_add]

/-- Lists in lists, blocks of every kind in their items, and literal text that looks like LaTeX. -/
def mixedForest : List Node :=
  [.heading 1 [.text "\\end\x7bitemize\x7d", .math "x"]
    [.list .numbered
      [[.paragraph [.strong [.code "\x7d\x7d", .citation ["a", "b"]]],
        .list .bulleted [[.code none "f(x) \n"], [.quote ["said ", ""]]]],
      [],
      [.displayMath "x = y", .embed ⟨"lost", none, none⟩]],
    .figure ⟨"plots/a.png"⟩ (some "100% \x7b")],
  .paragraph [.emphasis [.link ⟨"a\x7b", none, some "\\item"⟩], .text "\\begin\x7bx \n"]]

theorem render_balanced_mixedForest :
    (∀ b ∈ Node.allBlocks mixedForest, ∀ raw ∈ b.raws, Plain raw) ∧
    depthAfter? 0 (render mixedForest).toList = some 0 ∧
      openAfter? [] (marks (render mixedForest).toList) = some [] ∧
      (marks (render mixedForest).toList).filterMap Mark.begun? =
        ["enumerate", "itemize", "verbatim", "equation*", "figure"] ∧
      (marks (render mixedForest).toList).count .item = 5 := by
  have plain : ∀ b ∈ Node.allBlocks mixedForest, ∀ raw ∈ b.raws, Plain raw := by decide +kernel
  obtain ⟨depth, nested, begun, _, items⟩ := render_balanced mixedForest plain
  exact ⟨plain, depth, nested, begun, items⟩

end Latex

end Longform
