import Longform.Note
import Longform.Proofs.Nesting

/-!
# The shape of a note

However a text is laid out, the blocks read from it are a flat list whose
headings have levels from one to six, and the body of its note is the forest of
that list. Reading the inline text changes titles and paragraphs only, so it
makes no difference whether it is read before or after the forest is made.

* `body_eq_nest`: the body of a note is the forest of a flat list.
* `nests_body`: the headings of a note descend.
-/

namespace Longform.Note

open Text Markdown Node

/-! ## Paragraphs -/

theorem textParagraph_level? (run : List (List Char)) :
    ∀ n ∈ textParagraph run, n.level? = none ∧ NestsOne 0 n := by
  cases run with
  | nil => nofun
  | cons l ls =>
    intro n mem
    rw [textParagraph, List.mem_singleton] at mem
    subst mem
    exact ⟨rfl, by rw [NestsOne]; trivial⟩

theorem splitLines_level? (ls : List (List Char)) :
    ∀ n ∈ (splitLines ls).2, n.level? = none ∧ NestsOne 0 n := by
  induction ls with
  | nil => nofun
  | cons l ls ih =>
    rcases rest : splitLines ls with ⟨run, blocks⟩
    rw [rest] at ih
    rw [splitLines, rest]
    dsimp only
    split
    · intro n mem
      rcases List.mem_append.1 mem with mem | mem
      · rcases List.mem_cons.1 mem with rfl | mem
        · exact ⟨rfl, by rw [NestsOne]; trivial⟩
        · exact textParagraph_level? _ n mem
      · exact ih n mem
    · exact ih

/-- A paragraph of a text has no headings. -/
theorem paragraphBlocks_level? (source : List Char) :
    ∀ n ∈ paragraphBlocks source, n.level? = none ∧ NestsOne 0 n := by
  rw [paragraphBlocks]
  split
  · intro n mem
    obtain rfl := List.mem_singleton.1 mem
    exact ⟨rfl, by rw [NestsOne]; trivial⟩
  · intro n mem
    rcases List.mem_append.1 mem with mem | mem
    · exact textParagraph_level? _ n mem
    · exact splitLines_level? _ n mem

/-! ## Blocks -/

theorem flat_singleton_heading (level : Nat) (title : List Inline) :
    Flat [.heading level title []] := by
  intro l t children mem
  cases List.mem_singleton.1 mem
  rfl

theorem nests_singleton_heading (level : Level) (title : List Inline) :
    Nests 0 [.heading level.value title []] := by
  rw [nests_heading]
  exact ⟨⟨level.one_le, nests_nil _⟩, nests_nil _⟩

theorem fencedCode_isLeaf (info content : List Char) : IsLeaf (fencedCode info content) := by
  unfold fencedCode
  dsimp only
  split <;> trivial

theorem flat_and_nests_of_isLeaf {n : Node} (isLeaf : IsLeaf n) : Flat [n] ∧ Nests 0 [n] := by
  refine ⟨flat_of_level? ?_, ?_⟩
  · intro m mem
    obtain rfl := List.mem_singleton.1 mem
    exact level?_of_isLeaf isLeaf
  · rw [nests_cons]
    exact ⟨nestsOne_of_isLeaf isLeaf 0, nests_nil _⟩

mutual

/-- A block gives a flat list whose headings have a level of at least one. -/
theorem ofBlock_flat_nests (b : Block) : Flat (ofBlock b) ∧ Nests 0 (ofBlock b) := by
  match b with
  | .heading level title =>
    rw [ofBlock]
    exact ⟨flat_singleton_heading _ _, nests_singleton_heading level _⟩
  | .underlined level title =>
    rw [ofBlock]
    exact ⟨flat_singleton_heading _ _, nests_singleton_heading level _⟩
  | .paragraph source =>
    rw [ofBlock]
    have shape := paragraphBlocks_level? source
    exact ⟨flat_of_level? fun n mem => (shape n mem).1,
      nests_iff_forall.2 fun n mem => (shape n mem).2⟩
  | .list marker items =>
    rw [ofBlock]
    refine ⟨flat_of_level? fun n mem => ?_, ?_⟩
    · obtain rfl := List.mem_singleton.1 mem
      rfl
    · rw [nests_cons, NestsOne]
      exact ⟨ofItems_nests items, nests_nil _⟩
  | .quote source =>
    rw [ofBlock]
    exact flat_and_nests_of_isLeaf trivial
  | .fenced info content =>
    rw [ofBlock]
    exact flat_and_nests_of_isLeaf (fencedCode_isLeaf info content)
  | .indented source =>
    rw [ofBlock]
    exact flat_and_nests_of_isLeaf trivial

theorem ofBlocks_flat_nests (bs : List Block) : Flat (ofBlocks bs) ∧ Nests 0 (ofBlocks bs) := by
  match bs with
  | [] =>
    rw [ofBlocks]
    exact ⟨nofun, nests_nil _⟩
  | b :: bs =>
    rw [ofBlocks, nests_append]
    have first := ofBlock_flat_nests b
    have rest := ofBlocks_flat_nests bs
    exact ⟨first.1.append rest.1, first.2, rest.2⟩

theorem ofItems_nests (items : List (List Block)) : NestsItems (ofItems items) := by
  match items with
  | [] =>
    rw [ofItems, NestsItems]
    trivial
  | item :: items =>
    rw [ofItems, NestsItems]
    exact ⟨(ofBlocks_flat_nests item).2, ofItems_nests items⟩

end

/-! ## Inline text -/

/-- Of the blocks that hold no others only a paragraph has text to read. -/
theorem readInlineOne_of_isLeaf {n : Node} (isLeaf : IsLeaf n) :
    readInlineOne n = n ∨
      ∃ content, n = .paragraph content ∧ readInlineOne n = .paragraph (readRaw content) := by
  cases n with
  | heading level title children => exact isLeaf.elim
  | list kind items => exact isLeaf.elim
  | embed link => exact isLeaf.elim
  | paragraph content =>
    refine .inr ⟨content, rfl, ?_⟩
    rw [readInlineOne]
  | _ =>
    left
    rw [readInlineOne] <;> nofun

theorem readInlineOne_embed (link : Link) : readInlineOne (.embed link) = .embed link := by
  rw [readInlineOne] <;> nofun

theorem level?_readInlineOne (n : Node) : (readInlineOne n).level? = n.level? := by
  cases n with
  | heading level title children => rw [readInlineOne]; rfl
  | paragraph content => rw [readInlineOne]; rfl
  | list kind items => rw [readInlineOne]; rfl
  | _ => rw [readInlineOne] <;> nofun

theorem readInline_eq_map (nodes : List Node) : readInline nodes = nodes.map readInlineOne := by
  induction nodes with
  | nil => rw [readInline, List.map_nil]
  | cons n nodes ih => rw [readInline, ih, List.map_cons]

theorem endsSection_readInlineOne (level : Nat) (n : Node) :
    endsSection level (readInlineOne n) = endsSection level n := by
  cases n with
  | heading l title children => rw [readInlineOne]; rfl
  | paragraph content => rw [readInlineOne]; rfl
  | list kind items => rw [readInlineOne]; rfl
  | _ => rw [readInlineOne] <;> nofun

theorem readInline_owned (level : Nat) (blocks : List Node) :
    readInline (owned level blocks) = owned level (readInline blocks) := by
  rw [readInline_eq_map, readInline_eq_map, owned, owned, List.takeWhile_map]
  simp only [Function.comp_def, endsSection_readInlineOne]

theorem readInline_unowned (level : Nat) (blocks : List Node) :
    readInline (unowned level blocks) = unowned level (readInline blocks) := by
  rw [readInline_eq_map, readInline_eq_map, unowned, unowned, List.dropWhile_map]
  simp only [Function.comp_def, endsSection_readInlineOne]

theorem readInline_flat {blocks : List Node} (flat : Flat blocks) : Flat (readInline blocks) := by
  intro level title children mem
  rw [readInline_eq_map] at mem
  obtain ⟨n, mem, same⟩ := List.mem_map.1 mem
  have kept := level?_readInlineOne n
  rw [same] at kept
  cases n with
  | heading l t c =>
    rw [readInlineOne, flat l t c mem, readInline] at same
    cases same
    rfl
  | _ => cases kept

/-- Reading the inline text of a forest and making the forest of read blocks are the same. -/
theorem readInline_nest {blocks : List Node} (flat : Flat blocks) :
    readInline (nest blocks) = nest (readInline blocks) := by
  fun_induction nest blocks with
  | case1 => rw [readInline, nest]
  | case2 level title children rest below after =>
    obtain rfl := flat level title children (List.mem_cons_self ..)
    rw [List.nil_append, readInline, readInlineOne, below flat.tail.owned, after flat.tail.unowned,
      readInline, readInlineOne, readInline, nest_heading, List.nil_append, readInline_owned,
      readInline_unowned]
  | case3 n rest other ih =>
    have none := (level?_readInlineOne n).trans (level?_eq_none other)
    rw [readInline, ih flat.tail, readInline, nest_cons_of_level? none]

theorem nests_readInline {level : Nat} {nodes : List Node} (h : Nests level nodes) :
    Nests level (readInline nodes) := by
  induction nodes using forestInduction generalizing level with
  | nil => rw [readInline]; exact nests_nil _
  | heading l title children nodes ihChildren ihNodes =>
    obtain ⟨⟨lt, inner⟩, rest⟩ := (nests_heading ..).1 h
    rw [readInline, readInlineOne, nests_heading]
    exact ⟨⟨lt, ihChildren inner⟩, ihNodes rest⟩
  | leaf n nodes isLeaf ih =>
    obtain ⟨-, rest⟩ := (nests_cons ..).1 h
    have readLeaf : IsLeaf (readInlineOne n) := by
      rcases readInlineOne_of_isLeaf isLeaf with same | ⟨content, rfl, read⟩
      · rw [same]
        exact isLeaf
      · rw [read]
        exact isLeaf
    rw [readInline, nests_cons]
    exact ⟨nestsOne_of_isLeaf readLeaf level, ih rest⟩
  | noItems kind nodes ih =>
    obtain ⟨-, rest⟩ := (nests_cons ..).1 h
    rw [readInline, readInlineOne, readInlineItems, nests_cons, NestsOne, NestsItems]
    exact ⟨trivial, ih rest⟩
  | item kind first items nodes ihItem ih =>
    rw [nests_cons, NestsOne, NestsItems] at h
    obtain ⟨⟨inItem, inItems⟩, rest⟩ := h
    have others := ih ((nests_cons ..).2 ⟨by rw [NestsOne]; exact inItems, rest⟩)
    rw [readInline, readInlineOne, nests_cons, NestsOne] at others
    rw [readInline, readInlineOne, readInlineItems, nests_cons, NestsOne, NestsItems]
    exact ⟨⟨ihItem inItem, others.1⟩, others.2⟩
  | embed link nodes ih =>
    obtain ⟨-, rest⟩ := (nests_cons ..).1 h
    rw [readInline, readInlineOne_embed, nests_cons, NestsOne]
    exact ⟨trivial, ih rest⟩

/-! ## Notes -/

theorem forest_eq_nest (markdown : String) :
    forest markdown = nest (readInline (blocks markdown)) :=
  readInline_nest (ofBlocks_flat_nests _).1

theorem body_of_parse {text : String} {note : Note} (parsed : Note.parse text = .ok note) :
    ∃ markdown, note.body = forest markdown := by
  rcases split : FrontMatter.split text with e | ⟨frontMatter, markdown⟩
  · simp [Note.parse, split, bind, Except.bind] at parsed
  · simp only [Note.parse, split, bind, Except.bind, Except.ok.injEq] at parsed
    exact ⟨markdown, by rw [← parsed]⟩

theorem exists_parse_of_bind {x : Except Error String} {note : Note}
    (parsed : x.bind Note.parse = .ok note) : ∃ text, Note.parse text = .ok note := by
  cases x with
  | error e => cases parsed
  | ok text => exact ⟨text, parsed⟩

/-- The body of a note is the forest of its blocks in reading order. -/
theorem body_eq_nest {text : String} {note : Note} (parsed : Note.parse text = .ok note) :
    Flat (flatten note.body) ∧ note.body = nest (flatten note.body) := by
  obtain ⟨markdown, same⟩ := body_of_parse parsed
  have flat := readInline_flat (ofBlocks_flat_nests (Reader.blocks markdown.toList)).1
  rw [same, forest_eq_nest, blocks, flatten_nest flat]
  exact ⟨flat, rfl⟩

/-- The headings of a note descend, and have levels of at least one. -/
theorem nests_body {text : String} {note : Note} (parsed : Note.parse text = .ok note) :
    Nests 0 note.body := by
  obtain ⟨markdown, same⟩ := body_of_parse parsed
  rw [same, forest]
  have flat := ofBlocks_flat_nests (Reader.blocks markdown.toList)
  exact nests_readInline (nests_nest flat.1 (nests_iff_forall.1 flat.2))

end Longform.Note
