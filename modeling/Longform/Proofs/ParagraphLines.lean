import Mathlib.Data.List.Chain
import Mathlib.Data.List.Forall2
import Longform.Note.Paragraph
import Longform.Proofs.ClosedBlocks
import Longform.Proofs.Folders
import Longform.Proofs.LinkParts

/-!
# The lines of a paragraph

What the grammar takes for a paragraph is cut at the lines that are embeds. No line
is lost, doubled or moved, and the lines between two embeds make one paragraph.
Only a paragraph between double dollar signs is kept whole.

* `displayMath?_eq_some_iff` says which paragraphs are display math.
* `Divides` says what blocks the other paragraphs are cut into, and
  `splitLines_divides` that they are, by the run of lines that is still open at the
  beginning.
* `paragraphBlocks_divides` puts both cases together.
-/

namespace Longform

open Text

namespace Text

variable {s line : List Char}

/-! ## Lines -/

theorem notMem_withoutEnd (free : '\n' ∉ s) : '\n' ∉ withoutEnd (s ++ ['\n']) := by
  rw [withoutEnd, before?_append]
  dsimp only
  rcases found : before? ['\r'] s with _ | bare
  · exact free
  · rw [before?_eq_some_iff.1 found] at free
    exact fun mem => free (List.mem_append_left _ mem)

theorem withoutEnd_of_notMem (unended : '\n' ∉ line) : withoutEnd line = line := by
  rw [withoutEnd]
  rcases found : before? ['\n'] line with _ | bare
  · rfl
  · rw [before?_eq_some_iff.1 found] at unended
    exact absurd (List.mem_append_right _ (List.mem_cons_self ..)) unended

/-- No line without its end holds a line feed. -/
theorem notMem_of_mem_lines (mem : line ∈ lines s) : '\n' ∉ line := by
  obtain ⟨kept, among, rfl⟩ := List.mem_map.1 mem
  have shape := areLines_linesKeepingEnds s
  clear mem
  generalize linesKeepingEnds s = all at among shape
  induction shape with
  | nil => cases among
  | last nonempty unended =>
    rw [List.mem_singleton.1 among, withoutEnd_of_notMem unended]
    exact unended
  | cons free _ ih =>
    rcases List.mem_cons.1 among with rfl | among
    · exact notMem_withoutEnd free
    · exact ih among

end Text

namespace Note

variable {source x : List Char} {ls run rest : List (List Char)} {blocks : List Node}

theorem notMem_of_mem_trimmedLines {l : List Char} (mem : l ∈ trimmedLines source) :
    l ≠ [] ∧ '\n' ∉ l := by
  obtain ⟨mem, some⟩ := List.mem_filter.1 mem
  obtain ⟨line, among, rfl⟩ := List.mem_map.1 mem
  refine ⟨by simpa using some, fun inLine => ?_⟩
  exact notMem_of_mem_lines among ((trim_sublist line).subset inLine)

/-! ## Display math -/

/-- The text stands between double dollar signs, and what is left of `x` without the blanks at its
ends is something, and holds no further ones. -/
def IsDisplay (text x : List Char) : Prop :=
  text = ['$', '$'] ++ x ++ ['$', '$'] ∧ trim x ≠ [] ∧ ¬ ['$', '$'] <:+: trim x

theorem displayMath?_eq_some_iff {text : List Char} {formula : String} :
    displayMath? text = some formula ↔
      ∃ x, IsDisplay text x ∧ formula = String.ofList (trim x) := by
  constructor
  · intro read
    obtain ⟨behind, opens, read⟩ := Option.bind_eq_some_iff.1 read
    obtain ⟨inner, closes, read⟩ := Option.bind_eq_some_iff.1 read
    dsimp only at read
    split at read
    · cases read
    · next proper =>
      cases read
      simp only [Bool.or_eq_true, List.isEmpty_iff, contains_iff, not_or] at proper
      refine ⟨inner, ⟨?_, proper⟩, rfl⟩
      rw [after?_eq_some opens, before?_eq_some_iff.1 closes, List.append_assoc]
  · rintro ⟨x, ⟨rfl, proper⟩, rfl⟩
    rw [displayMath?, List.append_assoc, after?_append]
    change (before? ['$', '$'] (x ++ ['$', '$'])).bind _ = _
    rw [before?_append]
    refine if_neg ?_
    simpa only [Bool.or_eq_true, List.isEmpty_iff, contains_iff, not_or] using proper

/-! ## Cutting at embeds -/

/-- Whether a block is a paragraph. -/
def isParagraph : Node → Bool
  | .paragraph _ => true
  | _ => false

/-- A block stands for lines: a paragraph for those of its text, and an embed for a line that it is
read from. -/
inductive StandsFor : Node → List (List Char) → Prop
  | paragraph (text : List Char) : StandsFor (.paragraph (rawText text)) (splitOn '\n' text)
  | embed {line : List Char} {link : Link} (read : Link.parseLine? line = some link) :
    StandsFor (.embed link) [line]

/-- The blocks stand for the lines, one after another. No paragraph is empty or holds the line of an
embed, and no two paragraphs stand side by side. -/
structure Divides (blocks : List Node) (ls : List (List Char)) : Prop where
  lines : ∃ parts, List.Forall₂ StandsFor blocks parts ∧ parts.flatten = ls
  text : ∀ content, .paragraph content ∈ blocks → ∃ text, content = rawText text ∧ text ≠ [] ∧
    ∀ line ∈ splitOn '\n' text, Link.parseLine? line = none
  apart : blocks.IsChain fun a b => ¬ (isParagraph a = true ∧ isParagraph b = true)

variable {line : List Char} {link : Link}

theorem divides_nil : Divides [] [] :=
  ⟨⟨[], .nil, rfl⟩, nofun, .nil⟩

/-- An embed stands before what the lines behind its own are cut into. -/
theorem Divides.embed (read : Link.parseLine? line = some link) (divides : Divides blocks ls) :
    Divides (.embed link :: blocks) (line :: ls) := by
  obtain ⟨parts, each, rfl⟩ := divides.lines
  refine ⟨⟨[line] :: parts, .cons (.embed read) each, rfl⟩, fun content mem => ?_, ?_⟩
  · rcases List.mem_cons.1 mem with same | mem
    · cases same
    · exact divides.text content mem
  · exact List.isChain_cons.2 ⟨fun n _ both => absurd both.1 Bool.false_ne_true, divides.apart⟩

/-- A run of lines becomes a paragraph before blocks that do not begin with one. -/
theorem Divides.textParagraph (proper : ∀ l ∈ run, l ≠ [] ∧ '\n' ∉ l)
    (plain : ∀ l ∈ run, Link.parseLine? l = none) (divides : Divides blocks rest)
    (first : ∀ n ∈ blocks.head?, isParagraph n = false) :
    Divides (textParagraph run ++ blocks) (run ++ rest) := by
  rcases run with _ | ⟨l, run⟩
  · exact divides
  · obtain ⟨parts, each, rfl⟩ := divides.lines
    have split : splitOn '\n' (List.intercalate ['\n'] (l :: run)) = l :: run :=
      splitOn_intercalate (List.cons_ne_nil l run) fun piece mem => (proper piece mem).2
    refine ⟨⟨(l :: run) :: parts, .cons ?_ each, rfl⟩, fun content mem => ?_, ?_⟩
    · have stands := StandsFor.paragraph (List.intercalate ['\n'] (l :: run))
      rwa [split] at stands
    · rcases List.mem_cons.1 mem with same | mem
      · cases same
        refine ⟨_, rfl, fun empty => ?_, fun line mem => plain line (split ▸ mem)⟩
        rw [empty] at split
        cases split
        exact (proper [] (List.mem_cons_self ..)).1 rfl
      · exact divides.text content mem
    · refine List.isChain_cons.2 ⟨fun n among both => ?_, divides.apart⟩
      rw [first n among] at both
      exact absurd both.2 Bool.false_ne_true

theorem Divides.cases_of_mem {n : Node} (divides : Divides blocks ls) (mem : n ∈ blocks) :
    (∃ text, text ≠ [] ∧ n = .paragraph (rawText text)) ∨ ∃ link, n = .embed link := by
  obtain ⟨parts, each, -⟩ := divides.lines
  obtain ⟨part, stands⟩ : ∃ part, StandsFor n part := by
    obtain ⟨i, lt, rfl⟩ := List.mem_iff_getElem.1 mem
    exact ⟨_, each.get lt (each.length_eq ▸ lt)⟩
  cases stands with
  | paragraph text =>
    obtain ⟨text, content, some, -⟩ := divides.text _ mem
    exact .inl ⟨text, some, congrArg Node.paragraph content⟩
  | @embed line link read => exact .inr ⟨link, rfl⟩

/-- The lines before the first embed are plain, and the blocks begin with that embed. -/
theorem splitLines_divides (proper : ∀ l ∈ ls, l ≠ [] ∧ '\n' ∉ l) :
    ∃ rest, ls = (splitLines ls).1 ++ rest ∧ (∀ l ∈ (splitLines ls).1, Link.parseLine? l = none) ∧
      Divides (splitLines ls).2 rest ∧ ∀ n ∈ (splitLines ls).2.head?, isParagraph n = false := by
  induction ls with
  | nil => exact ⟨[], rfl, List.forall_mem_nil _, divides_nil, nofun⟩
  | cons l ls ih =>
    rw [List.forall_mem_cons] at proper
    obtain ⟨rest, whole, plain, divides, first⟩ := ih proper.2
    rcases cut : splitLines ls with ⟨run, blocks⟩
    rw [cut] at whole plain divides first
    rw [splitLines, cut]
    dsimp only at whole plain divides first ⊢
    rcases read : Link.parseLine? l with _ | link
    · exact ⟨rest, congrArg (l :: ·) whole, List.forall_mem_cons.2 ⟨read, plain⟩, divides, first⟩
    · -- The open run is closed by the embed before it.
      have properRun : ∀ l ∈ run, l ≠ [] ∧ '\n' ∉ l := fun l mem =>
        proper.2 l (whole ▸ List.mem_append_left _ mem)
      have behind := Divides.textParagraph properRun plain divides first
      rw [← whole] at behind
      refine ⟨l :: ls, rfl, List.forall_mem_nil _, behind.embed read, ?_⟩
      rintro n ⟨⟩
      rfl

/-- What is not display math is cut at the lines that are embeds. -/
theorem divides_of_displayMath?
    (noMath : displayMath? (List.intercalate ['\n'] (trimmedLines source)) = none) :
    Divides (paragraphBlocks source) (trimmedLines source) := by
  have proper : ∀ l ∈ trimmedLines source, l ≠ [] ∧ '\n' ∉ l := fun l => notMem_of_mem_trimmedLines
  obtain ⟨rest, whole, plain, divides, first⟩ := splitLines_divides proper
  have properRun : ∀ l ∈ (splitLines (trimmedLines source)).1, l ≠ [] ∧ '\n' ∉ l :=
    fun l mem => proper l (whole ▸ List.mem_append_left _ mem)
  have together := Divides.textParagraph properRun plain divides first
  rw [← whole] at together
  rw [paragraphBlocks, noMath]
  exact together

theorem paragraphBlocks_of_displayMath? {formula : String}
    (math : displayMath? (List.intercalate ['\n'] (trimmedLines source)) = some formula) :
    paragraphBlocks source = [.displayMath formula] := by
  rw [paragraphBlocks, math]

/-- A paragraph between double dollar signs is display math. Any other is cut at the lines that are
embeds, and keeps all lines that are not blank, in their order and without the blanks at their
ends. -/
theorem paragraphBlocks_divides (source : List Char) :
    (∀ x, IsDisplay (List.intercalate ['\n'] (trimmedLines source)) x →
      paragraphBlocks source = [.displayMath (String.ofList (trim x))]) ∧
    ((¬ ∃ x, IsDisplay (List.intercalate ['\n'] (trimmedLines source)) x) →
      Divides (paragraphBlocks source) (trimmedLines source)) := by
  constructor
  · intro x display
    exact paragraphBlocks_of_displayMath? (displayMath?_eq_some_iff.2 ⟨x, display, rfl⟩)
  · intro noDisplay
    refine divides_of_displayMath? (Option.eq_none_iff_forall_ne_some.2 fun formula math => ?_)
    obtain ⟨x, display, -⟩ := displayMath?_eq_some_iff.1 math
    exact noDisplay ⟨x, display⟩

/-- Two embeds with an empty line between them, and text with dollar signs around them. -/
def embedsInText : List Char := " $$a \n![[b]]\n\n  ![[c#d|e]]\nf ![[g]]\n$$ h\n".toList

/-- A formula over two lines. -/
def formulaOverLines : List Char := "$$\n  x\n\n  = y$$ \n".toList

theorem paragraphBlocks_divides_embedsInText :
    (¬ ∃ x, IsDisplay (List.intercalate ['\n'] (trimmedLines embedsInText)) x) ∧
      paragraphBlocks embedsInText =
        [.paragraph [.text "$$a"], .embed ⟨"b", none, none⟩, .embed ⟨"c", some "d", some "e"⟩,
          .paragraph [.text "f ![[g]]\n$$ h"]] ∧
      Divides (paragraphBlocks embedsInText)
        ["$$a".toList, "![[b]]".toList, "![[c#d|e]]".toList, "f ![[g]]".toList, "$$ h".toList] ∧
      IsDisplay (List.intercalate ['\n'] (trimmedLines formulaOverLines)) "\nx\n= y".toList ∧
      paragraphBlocks formulaOverLines = [.displayMath "x\n= y"] := by
  have kept : trimmedLines embedsInText =
      ["$$a".toList, "![[b]]".toList, "![[c#d|e]]".toList, "f ![[g]]".toList, "$$ h".toList] := by
    decide +kernel
  have noDisplay : ¬ ∃ x, IsDisplay (List.intercalate ['\n'] (trimmedLines embedsInText)) x := by
    rintro ⟨x, whole, -⟩
    have unclosed : before? ['$', '$']
        (List.intercalate ['\n'] (trimmedLines embedsInText)) = none := by decide +kernel
    cases unclosed.symm.trans (before?_eq_some_iff.2 whole)
  have display : IsDisplay (List.intercalate ['\n'] (trimmedLines formulaOverLines))
      "\nx\n= y".toList := ⟨by decide +kernel, by decide +kernel, by decide +kernel⟩
  have trimmed : String.ofList (trim "\nx\n= y".toList) = "x\n= y" := by decide +kernel
  refine ⟨noDisplay, rfl, ?_, display, ?_⟩
  · rw [← kept]
    exact (paragraphBlocks_divides embedsInText).2 noDisplay
  · rw [← trimmed]
    exact (paragraphBlocks_divides formulaOverLines).1 _ display

end Note

end Longform
