import Longform.Proofs.Balance
import Longform.Proofs.NormalSpans
import Longform.Proofs.NoteShape
import Longform.Proofs.Outline
import Longform.Proofs.ParagraphLines

/-!
# The shape of the body of a note

Whatever blocks the grammar finds in a text, and however they are nested in list
items, the body of the note has a shape that the resolver relies on, block by block
(`IsShaped`) and at every depth (`IsBody`).

* `isShaped_ofBlocks`: one case for each kind of block, the items of lists included.
* `isShaped_nest`: making the forest gives headings what they own and changes nothing else.
* `isBody_ofBlocks` puts these together for any blocks, and `parse_isBody` for the
  notes of texts.
-/

namespace Longform

open Text Markdown

namespace Node

variable {b n : Node} {nodes blocks : List Node}

/-! ## Blocks at any depth -/

theorem mem_allBlocks_iff : b ∈ allBlocks nodes ↔ ∃ n ∈ nodes, b ∈ n.allBlocksOne := by
  induction nodes with
  | nil => simp [allBlocks]
  | cons n nodes ih => rw [allBlocks, List.mem_append, ih, List.exists_mem_cons_iff]

theorem allBlocks_append (a b : List Node) : allBlocks (a ++ b) = allBlocks a ++ allBlocks b := by
  induction a with
  | nil => rfl
  | cons n a ih => rw [List.cons_append, allBlocks, allBlocks, ih, List.append_assoc]

theorem allBlocks_subset (sub : nodes ⊆ blocks) : allBlocks nodes ⊆ allBlocks blocks := by
  intro b mem
  obtain ⟨n, among, inside⟩ := mem_allBlocks_iff.1 mem
  exact mem_allBlocks_iff.2 ⟨n, sub among, inside⟩

theorem allBlocksOne_of_isLeaf (isLeaf : IsLeaf n) : n.allBlocksOne = [n] := by
  cases n with
  | heading level title children => exact isLeaf.elim
  | list kind items => exact isLeaf.elim
  | _ => rfl

/-! ## Shapes -/

/-- After a heading there are headings only. -/
def HeadingsLast (nodes : List Node) : Prop :=
  nodes.Pairwise fun a b => a.level?.isSome = true → b.level?.isSome = true

/-- A block is as the body of a note may hold it. The blocks in it are looked at one level deep. -/
def IsShaped : Node → Prop
  | .heading level _ children =>
    (1 ≤ level ∧ level ≤ 6) ∧ (∀ n ∈ children, ∀ l ∈ n.level?, level < l) ∧ HeadingsLast children
  | .paragraph content => content ≠ []
  | .list _ items => ∀ item ∈ items, Flat item
  | .figure _ _ => False
  | .code _ content => endsIn (· == '\n') content.toList = false
  | .embed _ | .quote _ | .displayMath _ => True

/-- Every block at any depth has the shape, and at the top headings come last. -/
structure IsBody (nodes : List Node) : Prop where
  headingsLast : HeadingsLast nodes
  shaped : ∀ n ∈ allBlocks nodes, IsShaped n

theorem headingsLast_of_isOutline (outline : isOutline nodes = true) : HeadingsLast nodes := by
  induction nodes with
  | nil => exact .nil
  | cons n nodes ih =>
    rw [isOutline, Bool.and_eq_true, Bool.and_eq_true, List.all_eq_true] at outline
    obtain ⟨⟨-, after⟩, rest⟩ := outline
    refine .cons (fun m mem heading => ?_) (ih rest)
    cases n with
    | heading level title children =>
      have ends := mayPrecede_heading_iff.1 (after m mem)
      cases m with
      | heading => rfl
      | _ => cases ends
    | _ => cases heading

/-- What stands in the forest of a flat list has the shape when the blocks of the list do. -/
theorem isShaped_nest (flat : Flat blocks) (shaped : ∀ n ∈ allBlocks blocks, IsShaped n) :
    ∀ n ∈ allBlocks (nest blocks), IsShaped n := by
  fun_induction nest blocks with
  | case1 => exact shaped
  | case2 level title children rest below after =>
    obtain rfl := flat level title children (List.mem_cons_self ..)
    rw [allBlocks, List.forall_mem_append] at shaped
    obtain ⟨⟨levels, -⟩, inRest⟩ : IsShaped (.heading level title []) ∧ _ :=
      ⟨shaped.1 _ (mem_allBlocksOne _), shaped.2⟩
    have inOwned : ∀ n ∈ allBlocks (owned level rest), IsShaped n := fun n mem =>
      inRest n (allBlocks_subset (List.takeWhile_sublist _).subset mem)
    have inUnowned : ∀ n ∈ allBlocks (unowned level rest), IsShaped n := fun n mem =>
      inRest n (allBlocks_subset (List.dropWhile_sublist _).subset mem)
    have deeper : ∀ n ∈ nest (owned level rest), ∀ l ∈ n.level?, level < l := by
      intro n mem l isHeading
      have inside := mayStandUnder_iff.2 (deeper_nest (deeper_owned level rest) n mem)
      rw [mayStandUnder, Option.mem_def.1 isHeading] at inside
      simpa using inside
    rw [List.nil_append, allBlocks, allBlocksOne, List.forall_mem_append, List.forall_mem_cons]
    refine ⟨⟨⟨levels, deeper, ?_⟩, below flat.tail.owned inOwned⟩,
      after flat.tail.unowned inUnowned⟩
    exact headingsLast_of_isOutline (isOutline_nest flat.tail.owned)
  | case3 n rest other ih =>
    rw [allBlocks, List.forall_mem_append] at shaped ⊢
    exact ⟨shaped.1, ih flat.tail shaped.2⟩

end Node

namespace Note

open Node

variable {blocks : List Node} {n : Node}

/-! ## Paragraphs -/

/-- A block of a paragraph is text that is to be read, an embed or display math. -/
theorem paragraphBlocks_cases {source : List Char} (mem : n ∈ paragraphBlocks source) :
    (∃ text, text ≠ [] ∧ n = .paragraph (rawText text)) ∨ (∃ link, n = .embed link) ∨
      ∃ formula, n = .displayMath formula := by
  rcases math : displayMath? (List.intercalate ['\n'] (trimmedLines source)) with _ | formula
  · exact ((divides_of_displayMath? math).cases_of_mem mem).imp_right .inl
  · rw [paragraphBlocks_of_displayMath? math] at mem
    exact .inr (.inr ⟨formula, List.mem_singleton.1 mem⟩)

theorem readRaw_rawText (text : List Char) :
    readRaw (rawText text) = Inline.parse (String.ofList text) := rfl

/-- Only paragraphs have text to read. -/
theorem readInlineOne_of_not_isParagraph (isLeaf : IsLeaf n) (noText : isParagraph n = false) :
    readInlineOne n = n := by
  rcases readInlineOne_of_isLeaf isLeaf with same | ⟨content, rfl, -⟩
  · exact same
  · cases noText

theorem isShaped_readInlineOne (isLeaf : IsLeaf n) (noText : isParagraph n = false)
    (shaped : IsShaped n) : ∀ b ∈ allBlocks (readInline [n]), IsShaped b := by
  rw [readInline, readInline, allBlocks, allBlocks, List.append_nil,
    readInlineOne_of_not_isParagraph isLeaf noText, allBlocksOne_of_isLeaf isLeaf,
    List.forall_mem_singleton]
  exact shaped

theorem isShaped_paragraphBlocks (source : List Char) :
    ∀ n ∈ allBlocks (readInline (paragraphBlocks source)), IsShaped n := by
  intro b mem
  rw [readInline_eq_map] at mem
  obtain ⟨m, among, inside⟩ := mem_allBlocks_iff.1 mem
  obtain ⟨n, inSource, rfl⟩ := List.mem_map.1 among
  rcases paragraphBlocks_cases inSource with ⟨text, some, rfl⟩ | ⟨link, rfl⟩ | ⟨formula, rfl⟩
  · rw [readInlineOne, readRaw_rawText] at inside
    rw [List.mem_singleton.1 inside, IsShaped]
    intro none
    exact some (String.ofList_eq_empty_iff.1 ((Inline.parse_eq_nil_iff _).1 none))
  · rw [readInlineOne_embed] at inside
    rw [List.mem_singleton.1 inside]
    trivial
  · rw [readInlineOne_of_not_isParagraph (n := .displayMath formula) trivial rfl] at inside
    rw [List.mem_singleton.1 inside]
    trivial

/-! ## Blocks -/

theorem isShaped_code (language : Option String) (content : List Char) :
    IsShaped (.code language (String.ofList (dropEndWhile (· == '\n') content))) := by
  rw [IsShaped, String.toList_ofList]
  exact endsIn_dropEndWhile _ content

theorem isShaped_fencedCode (info content : List Char) :
    IsShaped (fencedCode info content) ∧ isParagraph (fencedCode info content) = false := by
  unfold fencedCode
  dsimp only
  split
  · exact ⟨trivial, rfl⟩
  · exact ⟨isShaped_code _ content, rfl⟩

theorem isShaped_heading (level : Level) (title : List Inline) :
    ∀ b ∈ allBlocks (readInline [.heading level.value title []]), IsShaped b := by
  intro b mem
  rw [readInline, readInlineOne, readInline] at mem
  rw [List.mem_singleton.1 mem]
  exact ⟨⟨level.one_le, level.le_six⟩, List.forall_mem_nil _, .nil⟩

mutual

theorem isShaped_ofBlock (block : Block) :
    ∀ n ∈ allBlocks (readInline (ofBlock block)), IsShaped n := by
  match block with
  | .heading level title =>
    rw [ofBlock]
    exact isShaped_heading level _
  | .underlined level title =>
    rw [ofBlock]
    exact isShaped_heading level _
  | .paragraph source =>
    rw [ofBlock]
    exact isShaped_paragraphBlocks source
  | .list marker items =>
    rw [ofBlock, readInline, readInlineOne, readInline, allBlocks, allBlocks, allBlocksOne,
      List.append_nil, List.forall_mem_cons]
    exact isShaped_ofItems items
  | .quote source =>
    rw [ofBlock]
    exact isShaped_readInlineOne trivial rfl trivial
  | .fenced info content =>
    rw [ofBlock]
    obtain ⟨shaped, noText⟩ := isShaped_fencedCode info content
    exact isShaped_readInlineOne (fencedCode_isLeaf info content) noText shaped
  | .indented source =>
    rw [ofBlock]
    exact isShaped_readInlineOne trivial rfl (isShaped_code _ _)

/-- Whatever blocks there are, those made of them have the shape at every depth. -/
theorem isShaped_ofBlocks (bs : List Block) :
    ∀ n ∈ allBlocks (readInline (ofBlocks bs)), IsShaped n := by
  match bs with
  | [] =>
    rw [ofBlocks, readInline]
    exact List.forall_mem_nil _
  | b :: bs =>
    rw [ofBlocks, readInline_eq_map, List.map_append, ← readInline_eq_map, ← readInline_eq_map,
      allBlocks_append, List.forall_mem_append]
    exact ⟨isShaped_ofBlock b, isShaped_ofBlocks bs⟩

/-- The items of a list are flat, for no forest is made of them. -/
theorem isShaped_ofItems (items : List (List Block)) :
    (∀ item ∈ readInlineItems (ofItems items), Flat item) ∧
      ∀ n ∈ allItemBlocks (readInlineItems (ofItems items)), IsShaped n := by
  match items with
  | [] =>
    rw [ofItems, readInlineItems]
    exact ⟨List.forall_mem_nil _, List.forall_mem_nil _⟩
  | item :: items =>
    obtain ⟨flat, shaped⟩ := isShaped_ofItems items
    rw [ofItems, readInlineItems, allItemBlocks, List.forall_mem_cons, List.forall_mem_append]
    exact ⟨⟨readInline_flat (ofBlocks_flat_nests item).1, flat⟩, isShaped_ofBlocks item, shaped⟩

end

/-! ## Notes -/

/-- Any blocks make a body. -/
theorem isBody_ofBlocks (bs : List Block) : IsBody (readInline (nest (ofBlocks bs))) := by
  have flat := readInline_flat (ofBlocks_flat_nests bs).1
  rw [readInline_nest (ofBlocks_flat_nests bs).1]
  exact ⟨headingsLast_of_isOutline (isOutline_nest flat), isShaped_nest flat (isShaped_ofBlocks bs)⟩

/-- A note fails to be read exactly if its front matter does, with the same error, and the body of
every other note has the shape. -/
theorem parse_isBody (text : String) :
    (∀ e, Note.parse text = .error e ↔ FrontMatter.split text = .error e) ∧
      ∀ note, Note.parse text = .ok note → IsBody note.body := by
  constructor
  · intro e
    rcases split : FrontMatter.split text with e' | ⟨frontMatter, markdown⟩
    · simp [Note.parse, split, bind, Except.bind]
    · simp [Note.parse, split, bind, Except.bind]
  · intro note parsed
    obtain ⟨markdown, same⟩ := body_of_parse parsed
    rw [same]
    exact isBody_ofBlocks _

/-- A heading in a list item and code that ends in an empty line, below a heading of a higher level
than the next one. -/
theorem parse_isBody_headingInItem :
    ∃ note, Note.parse "lead\n### A\n- # *B*\n  ```\n  x\n\n  ```\n## C\n" = .ok note ∧
      note.body.map Node.level? = [none, some 3, some 2] ∧ IsBody note.body := by
  have read : (Note.parse "lead\n### A\n- # *B*\n  ```\n  x\n\n  ```\n## C\n").toOption.map
      (fun note => note.body.map Node.level?) = some [none, some 3, some 2] := by decide +kernel
  obtain ⟨note, found, levels⟩ := Option.map_eq_some_iff.1 read
  rcases parsed : Note.parse "lead\n### A\n- # *B*\n  ```\n  x\n\n  ```\n## C\n" with e | note'
  · rw [parsed] at found
    cases found
  · rw [parsed] at found
    cases found
    exact ⟨note, rfl, levels, (parse_isBody _).2 note parsed⟩

end Note

end Longform
