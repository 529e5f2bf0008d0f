import Longform.Proofs.NoteShape

/-!
# Notes show no image

An image is shown where an embed of it was resolved. A note that is read has no
other way to show one, so its blocks show none (`figureFiles_body`), and nothing
that is done to them before embeds are resolved makes them show any.
-/

namespace Longform

namespace Node

variable {nodes : List Node}

/-! ## Forests -/

theorem figureFiles_append (a b : List Node) :
    figureFiles (a ++ b) = figureFiles a ++ figureFiles b := by
  induction a with
  | nil => rfl
  | cons n a ih => rw [List.cons_append, figureFiles, figureFiles, ih, List.append_assoc]

theorem figureFiles_lower (nodes : List Node) : figureFiles (lower nodes) = figureFiles nodes := by
  induction nodes using headingInduction with
  | nil => rw [lower]
  | heading level title children nodes ihChildren ihNodes =>
    rw [lower, lowerOne, figureFiles, figureFiles, files, files, ihChildren, ihNodes]
  | other n nodes h ih => rw [lower, lowerOne_of_level? h, figureFiles, figureFiles, ih]

theorem figureFiles_nest (blocks : List Node) : figureFiles (nest blocks) = figureFiles blocks := by
  fun_induction nest blocks with
  | case1 => rfl
  | case2 level title children rest below after =>
    rw [figureFiles, files, figureFiles_append, below, after, List.append_assoc,
      ← figureFiles_append, owned_append_unowned, figureFiles, files]
  | case3 n rest other ih => rw [figureFiles, figureFiles, ih]

/-- A forest shows no image when none of its blocks does. -/
theorem figureFiles_eq_nil_iff : figureFiles nodes = [] ↔ ∀ n ∈ nodes, files n = [] := by
  induction nodes with
  | nil => simp [figureFiles]
  | cons n nodes ih => rw [figureFiles, List.append_eq_nil_iff, ih, List.forall_mem_cons]

theorem figureFiles_of_find {wanted : String} {found : Heading} (free : figureFiles nodes = [])
    (find : findNormalized? wanted nodes = some found) : figureFiles found.children = [] := by
  induction nodes using headingInduction with
  | nil => rw [findNormalized?] at find; cases find
  | heading level title children nodes ihChildren ihNodes =>
    rw [figureFiles, files, List.append_eq_nil_iff] at free
    rw [findNormalized?, findInOne?] at find
    split at find
    · next hit =>
      cases find
      split at hit
      · cases hit
        exact free.1
      · exact ihChildren free.1 hit
    · exact ihNodes free.2 find
  | other n nodes h ih =>
    rw [figureFiles, List.append_eq_nil_iff] at free
    rw [findNormalized?, findInOne?_of_level? h] at find
    exact ih free.2 find

end Node

namespace Note

open Text Markdown Node

/-! ## Notes -/

theorem figureFiles_textParagraph (run : List (List Char)) :
    figureFiles (textParagraph run) = [] := by
  cases run with
  | nil => rfl
  | cons l ls => rw [textParagraph, figureFiles, files, figureFiles]; rfl

theorem figureFiles_splitLines (ls : List (List Char)) : figureFiles (splitLines ls).2 = [] := by
  induction ls with
  | nil => rfl
  | cons l ls ih =>
    rcases rest : splitLines ls with ⟨run, blocks⟩
    rw [rest] at ih
    rw [splitLines, rest]
    dsimp only
    split
    · rw [List.cons_append, figureFiles, files, figureFiles_append, figureFiles_textParagraph, ih]
      rfl
    · exact ih

theorem figureFiles_paragraphBlocks (source : List Char) :
    figureFiles (paragraphBlocks source) = [] := by
  rw [paragraphBlocks]
  split
  · rw [figureFiles, files, figureFiles]
    rfl
  · rw [figureFiles_append, figureFiles_textParagraph, figureFiles_splitLines]
    rfl

theorem files_fencedCode (info content : List Char) : files (fencedCode info content) = [] := by
  unfold fencedCode
  dsimp only
  split
  · rw [files]
  · rw [files]

mutual

theorem figureFiles_ofBlock (b : Block) : figureFiles (ofBlock b) = [] := by
  match b with
  | .heading level title => simp only [ofBlock, figureFiles, files, List.append_nil]
  | .underlined level title => simp only [ofBlock, figureFiles, files, List.append_nil]
  | .paragraph source =>
    rw [ofBlock]
    exact figureFiles_paragraphBlocks source
  | .list marker items =>
    rw [ofBlock, figureFiles, files, itemFiles_ofItems items, figureFiles]
    rfl
  | .quote source => simp only [ofBlock, figureFiles, files, List.append_nil]
  | .fenced info content =>
    rw [ofBlock, figureFiles, files_fencedCode, figureFiles]
    rfl
  | .indented source => simp only [ofBlock, figureFiles, indentedCode, files, List.append_nil]

theorem figureFiles_ofBlocks (bs : List Block) : figureFiles (ofBlocks bs) = [] := by
  match bs with
  | [] => rfl
  | b :: bs =>
    rw [ofBlocks, figureFiles_append, figureFiles_ofBlock b, figureFiles_ofBlocks bs]
    rfl

theorem itemFiles_ofItems (items : List (List Block)) : itemFiles (ofItems items) = [] := by
  match items with
  | [] => rfl
  | item :: items =>
    rw [ofItems, itemFiles, figureFiles_ofBlocks item, itemFiles_ofItems items]
    rfl

end

theorem figureFiles_readInline (nodes : List Node) :
    figureFiles (readInline nodes) = figureFiles nodes := by
  induction nodes using forestInduction with
  | nil => rw [readInline]
  | heading level title children nodes ihChildren ihNodes =>
    simp only [readInline, readInlineOne, figureFiles, files, ihChildren, ihNodes]
  | leaf n nodes isLeaf ih =>
    have same : files (readInlineOne n) = files n := by
      rcases readInlineOne_of_isLeaf isLeaf with same | ⟨content, rfl, read⟩
      · rw [same]
      · rw [read, files, files]
    rw [readInline, figureFiles, figureFiles, same, ih]
  | noItems kind nodes ih =>
    simp only [readInline, readInlineOne, readInlineItems, figureFiles, files, ih]
  | item kind item items nodes ihItem ih =>
    simp only [readInline, readInlineOne, figureFiles, files, readInlineItems, itemFiles, ihItem,
      List.append_assoc] at ih ⊢
    rw [ih]
  | embed link nodes ih =>
    rw [readInline, readInlineOne_embed, figureFiles, figureFiles, ih]

/-- A note that is read shows no image: images come with embeds alone. -/
theorem figureFiles_body {text : String} {note : Note} (parsed : Note.parse text = .ok note) :
    figureFiles note.body = [] := by
  obtain ⟨markdown, same⟩ := body_of_parse parsed
  rw [same, forest, figureFiles_readInline, figureFiles_nest]
  exact figureFiles_ofBlocks _

end Note

end Longform
