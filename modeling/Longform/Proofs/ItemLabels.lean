import Longform.Proofs.Balance
import Longform.Proofs.LinkText

/-!
# Items and their labels

An opening bracket right behind the command of a list item begins a label for LaTeX.
The text of an item is written right behind the command, and literal text keeps its
brackets, so an item that begins with one loses its beginning to a label.

* `forestPlaces` lists where the items of a forest are written, at any depth: for each
  the text before and after the place right behind its command.
* `bracketFirst_render`: which forests begin with a bracket.
* `item_followed_by_bracket`: a bracket stands at a place just when its item begins
  with one, for every item of a forest.
-/

namespace Longform

/-! ## Texts that begin with a bracket -/

/-- The first character is an opening bracket. -/
def bracketFirst (s : String) : Bool := Text.startsIn (· == '[') s.toList

/-- Whether the first character that is written for a text is an opening bracket. -/
def Inline.opensBracket : List Inline → Bool
  | .text s :: more => if s = "" then opensBracket more else bracketFirst s
  | .link l :: more => if l.shown = "" then opensBracket more else bracketFirst l.shown
  | _ => false

/-- Whether the first character that is written for a forest is an opening bracket. Only an empty
quotation is written as nothing. -/
def Node.opensBracket : List Node → Bool
  | .paragraph content :: _ => Inline.opensBracket content
  | .quote [] :: more => opensBracket more
  | _ => false

namespace Latex

open Text (isBlank)

variable {s t lead tail : String}

theorem bracketFirst_append (nonempty : s ≠ "") (t : String) :
    bracketFirst (s ++ t) = bracketFirst s := by
  rw [bracketFirst, String.toList_append]
  exact Text.startsIn_append (Text.toList_ne_nil nonempty) _

theorem bracketFirst_command_append (name argument rest : String) :
    bracketFirst (command name argument ++ rest) = false := by
  rw [bracketFirst, String.toList_append, toList_command_append]
  rfl

theorem escapeChar_ne_nil (c : Char) : escapeChar c ≠ [] := by
  unfold escapeChar
  split <;> exact List.cons_ne_nil _ _

theorem escape_ne_empty (nonempty : s ≠ "") : escape s ≠ "" := by
  intro empty
  have chars := congrArg String.toList empty
  rw [escape, String.toList_ofList] at chars
  obtain ⟨c, rest, first⟩ := List.exists_cons_of_ne_nil (Text.toList_ne_nil nonempty)
  rw [first, List.flatMap_cons] at chars
  exact escapeChar_ne_nil c (List.append_eq_nil_iff.1 chars).1

/-- No character that is escaped is written with a bracket. -/
theorem bracketFirst_escape (s : String) : bracketFirst (escape s) = bracketFirst s := by
  have first : ∀ c, Text.startsIn (· == '[') (escapeChar c) = (c == '[') := by
    intro c
    unfold escapeChar
    split <;> rfl
  rw [bracketFirst, bracketFirst, escape, String.toList_ofList]
  cases s.toList with
  | nil => rfl
  | cons c s =>
    rw [List.flatMap_cons, Text.startsIn_append (escapeChar_ne_nil c), first]
    rfl

theorem bracketFirst_escape_append (s t : String) :
    bracketFirst (escape s ++ t) = if s = "" then bracketFirst t else bracketFirst s := by
  by_cases empty : s = ""
  · subst empty
    exact congrArg bracketFirst String.empty_append
  · rw [bracketFirst_append (escape_ne_empty empty), bracketFirst_escape, if_neg empty]

theorem bracketFirst_inlines (content : List Inline) :
    bracketFirst (inlines content) = Inline.opensBracket content := by
  induction content with
  | nil => rfl
  | cons i content ih =>
    cases i with
    | text s => rw [inlines, span, bracketFirst_escape_append, ih, Inline.opensBracket]
    | link l => rw [inlines, span, bracketFirst_escape_append, ih, Inline.opensBracket]
    | emphasis inner => exact bracketFirst_command_append _ _ _
    | strong inner => exact bracketFirst_command_append _ _ _
    | code c => exact bracketFirst_command_append _ _ _
    | citation keys => exact bracketFirst_command_append _ _ _
    | math m =>
      rw [inlines, span, String.append_assoc, String.append_assoc, bracketFirst_append (by decide)]
      rfl

theorem bracketFirst_environment_append (name options body rest : String) :
    bracketFirst (environment name options body ++ rest) = false := by
  simp only [environment, String.append_assoc, bracketFirst_command_append]

theorem bracketFirst_render (forest : List Node) :
    bracketFirst (render forest) = Node.opensBracket forest := by
  induction forest with
  | nil => rfl
  | cons n ns ih =>
    rw [render]
    cases n with
    | paragraph content =>
      rw [block, String.append_assoc, Node.opensBracket, ← bracketFirst_inlines]
      by_cases empty : inlines content = ""
      · rw [empty, String.empty_append, bracketFirst_append (by decide)]
        rfl
      · exact bracketFirst_append empty _
    | quote lines =>
      cases lines with
      | nil => exact (congrArg bracketFirst String.empty_append).trans ih
      | cons line lines =>
        rw [block, comments, List.map_cons, String.join_cons, String.append_assoc,
          String.append_assoc, String.append_assoc, bracketFirst_append (by decide)]
        rfl
    | heading level title children =>
      rw [block, commandLine, String.append_assoc, String.append_assoc]
      exact bracketFirst_command_append _ _ _
    | embed link =>
      rw [block, String.append_assoc, String.append_assoc, bracketFirst_append (by decide)]
      rfl
    | list kind entries => exact bracketFirst_environment_append _ _ _ _
    | figure file caption => exact bracketFirst_environment_append _ _ _ _
    | code language content => exact bracketFirst_environment_append _ _ _ _
    | displayMath text => exact bracketFirst_environment_append _ _ _ _

theorem bracketFirst_of_blank {blanks : List Char} (blank : ∀ c ∈ blanks, isBlank c = true) :
    bracketFirst (String.ofList blanks) = false := by
  rw [bracketFirst, String.toList_ofList]
  cases blanks with
  | nil => rfl
  | cons c blanks =>
    refine beq_false_of_ne ?_
    rintro rfl
    exact absurd (blank '[' (List.mem_cons_self ..)) (by decide)

theorem bracketFirst_withoutTrailingBlanks (s : String) :
    bracketFirst (withoutTrailingBlanks s) = bracketFirst s := by
  obtain ⟨blanks, whole, blank⟩ := exists_blanks s
  by_cases empty : withoutTrailingBlanks s = ""
  · rw [empty, String.empty_append] at whole
    rw [empty, whole, bracketFirst_of_blank blank]
    rfl
  · have kept := bracketFirst_append empty (String.ofList blanks)
    rw [← whole] at kept
    exact kept.symm

/-! ## Where items are written -/

/-- An item of a list, with the texts before and after the place right behind its command. -/
structure ItemPlace where
  before : String
  item : List Node
  after : String

namespace ItemPlace

/-- The place in a longer text. -/
def within (lead tail : String) (p : ItemPlace) : ItemPlace :=
  ⟨lead ++ p.before, p.item, p.after ++ tail⟩

/-- The place in the text without the blanks at its end. -/
def trimmed (p : ItemPlace) : ItemPlace := { p with after := withoutTrailingBlanks p.after }

end ItemPlace

mutual

/-- The places of the items in a block, in the order of the text. -/
def blockPlaces : Node → List ItemPlace
  | .heading level title children =>
    (forestPlaces children).map (·.within (commandLine (sectionCommand level) (inlines title)) "")
  | .list kind entries =>
    (itemPlaces entries).map (·.within (command "begin" (listEnvironment kind) ++ "\n")
      (commandLine "end" (listEnvironment kind)))
  | .paragraph _ | .embed _ | .figure _ _ | .code _ _ | .quote _ | .displayMath _ => []

/-- The places of the items in a forest, in the order of the text. -/
def forestPlaces : List Node → List ItemPlace
  | [] => []
  | n :: ns =>
    (blockPlaces n).map (·.within "" (render ns)) ++ (forestPlaces ns).map (·.within (block n) "")

/-- The places of some items and of the items in them, in the order of the text. -/
def itemPlaces : List (List Node) → List ItemPlace
  | [] => []
  | item :: more =>
    let text := withoutTrailingBlanks (render item)
    (⟨"\\item ", item, text ++ "\n"⟩ ::
        (forestPlaces item).map (·.trimmed.within "\\item " "\n")).map (·.within "" (items more)) ++
      (itemPlaces more).map (·.within ("\\item " ++ text ++ "\n") "")

end

/-! ## What stands there -/

/-- The place is in the text, behind a command, and has a bracket behind it just when its item
begins with one. -/
structure ItemPlace.Stands (p : ItemPlace) (s : String) : Prop where
  whole : p.before ++ p.after = s
  command : ∃ before, p.before = before ++ "\\item "
  nonempty : p.after ≠ ""
  bracket : bracketFirst p.after = Node.opensBracket p.item

variable {p : ItemPlace} {ps qs : List ItemPlace}

theorem ItemPlace.Stands.within (stands : p.Stands s) (lead tail : String) :
    (p.within lead tail).Stands (lead ++ s ++ tail) := by
  obtain ⟨before, command⟩ := stands.command
  constructor
  · rw [← stands.whole]
    simp only [ItemPlace.within, String.append_assoc]
  · exact ⟨lead ++ before, by rw [ItemPlace.within, command, String.append_assoc]⟩
  · intro empty
    exact stands.nonempty (String.append_eq_empty_iff.1 empty).1
  · exact (bracketFirst_append stands.nonempty tail).trans stands.bracket

theorem ItemPlace.Stands.trimmed (stands : p.Stands s) (seen : withoutTrailingBlanks p.after ≠ "") :
    p.trimmed.Stands (withoutTrailingBlanks s) := by
  constructor
  · rw [← stands.whole, withoutTrailingBlanks_append, if_neg seen]
    rfl
  · exact stands.command
  · exact seen
  · exact (bracketFirst_withoutTrailingBlanks p.after).trans stands.bracket

/-- The places are in the text, in its order. -/
structure Listed (ps : List ItemPlace) (s : String) : Prop where
  stands : ∀ p ∈ ps, p.Stands s
  ordered : ps.Pairwise fun p q => p.before.length < q.before.length

theorem Listed.nil (s : String) : Listed [] s := ⟨nofun, .nil⟩

theorem Listed.within (listed : Listed ps s) (lead tail : String) :
    Listed (ps.map (·.within lead tail)) (lead ++ s ++ tail) := by
  constructor
  · intro p among
    obtain ⟨q, inside, rfl⟩ := List.mem_map.1 among
    exact (listed.stands q inside).within lead tail
  · refine List.pairwise_map.2 (listed.ordered.imp fun {p q} less => ?_)
    simpa only [ItemPlace.within, String.length_append] using Nat.add_lt_add_left less _

theorem Listed.trimmed (listed : Listed ps s)
    (seen : ∀ p ∈ ps, withoutTrailingBlanks p.after ≠ "") :
    Listed (ps.map (·.trimmed)) (withoutTrailingBlanks s) := by
  constructor
  · intro p among
    obtain ⟨q, inside, rfl⟩ := List.mem_map.1 among
    exact (listed.stands q inside).trimmed (seen q inside)
  · exact List.pairwise_map.2 listed.ordered

theorem ItemPlace.Stands.before_length (stands : p.Stands s) :
    0 < p.before.length ∧ p.before.length ≤ s.length := by
  obtain ⟨before, command⟩ := stands.command
  constructor
  · rw [command, String.length_append]
    exact Nat.add_pos_right _ (by decide)
  · rw [← stands.whole, String.length_append]
    exact Nat.le_add_right _ _

/-- The places of two texts are those of the one text that they make up. -/
theorem Listed.append (left : Listed ps s) (right : Listed qs t) :
    Listed (ps.map (·.within "" t) ++ qs.map (·.within s "")) (s ++ t) := by
  have first := left.within "" t
  have second := right.within s ""
  rw [String.empty_append] at first
  rw [String.append_empty] at second
  constructor
  · intro p among
    exact (List.mem_append.1 among).elim (first.stands p) (second.stands p)
  · refine List.pairwise_append.2 ⟨first.ordered, second.ordered, ?_⟩
    intro _ mem _ mem'
    obtain ⟨p, inLeft, rfl⟩ := List.mem_map.1 mem
    obtain ⟨q, inRight, rfl⟩ := List.mem_map.1 mem'
    have ends := (left.stands p inLeft).before_length.2
    have begins := (right.stands q inRight).before_length.1
    simp only [ItemPlace.within, String.empty_append, String.length_append]
    omega

/-! ## The places of a forest -/

theorem nonblank_append
    (seen : withoutTrailingBlanks s ≠ "" ∨ withoutTrailingBlanks t ≠ "") :
    withoutTrailingBlanks (s ++ t) ≠ "" := by
  rw [withoutTrailingBlanks_append]
  split
  · next blank => exact seen.resolve_right (not_not_intro blank)
  · next nonblank =>
    intro empty
    exact nonblank (String.append_eq_empty_iff.1 empty).2

mutual

/-- Behind every place there is something that is not blank, so that no place is taken away with
the blanks at the end. -/
theorem seen_blockPlaces (n : Node) : ∀ p ∈ blockPlaces n, withoutTrailingBlanks p.after ≠ "" := by
  match n with
  | .heading level title children =>
    rw [blockPlaces, List.forall_mem_map]
    intro p among
    exact nonblank_append (.inl (seen_forestPlaces children p among))
  | .list kind entries =>
    rw [blockPlaces, List.forall_mem_map]
    intro p _
    -- The items may be blank, but the list ends with a command.
    refine nonblank_append (.inr ?_)
    rw [withoutTrailingBlanks_commandLine]
    exact command_ne_empty _ _
  | .paragraph _ | .embed _ | .figure _ _ | .code _ _ | .quote _ | .displayMath _ =>
    rw [blockPlaces]
    nofun

theorem seen_forestPlaces (forest : List Node) :
    ∀ p ∈ forestPlaces forest, withoutTrailingBlanks p.after ≠ "" := by
  match forest with
  | [] => nofun
  | n :: ns =>
    rw [forestPlaces, List.forall_mem_append, List.forall_mem_map, List.forall_mem_map]
    constructor
    · intro p among
      exact nonblank_append (.inl (seen_blockPlaces n p among))
    · intro p among
      exact nonblank_append (.inl (seen_forestPlaces ns p among))

end

theorem bracketFirst_itemLine (item : List Node) :
    bracketFirst (withoutTrailingBlanks (render item) ++ "\n") = Node.opensBracket item := by
  rw [← bracketFirst_render, ← bracketFirst_withoutTrailingBlanks (render item)]
  by_cases empty : withoutTrailingBlanks (render item) = ""
  · rw [empty]
    rfl
  · exact bracketFirst_append empty "\n"

/-- The first place of an item is its own, and the others are in its text. -/
theorem listed_item {item : List Node} (listed : Listed (forestPlaces item) (render item)) :
    Listed (⟨"\\item ", item, withoutTrailingBlanks (render item) ++ "\n"⟩ ::
        (forestPlaces item).map (·.trimmed.within "\\item " "\n"))
      ("\\item " ++ withoutTrailingBlanks (render item) ++ "\n") := by
  have inside := (listed.trimmed (seen_forestPlaces item)).within "\\item " "\n"
  rw [List.map_map] at inside
  constructor
  · refine List.forall_mem_cons.2 ⟨?_, inside.stands⟩
    constructor
    · rw [String.append_assoc]
    · exact ⟨"", rfl⟩
    · intro empty
      exact absurd (String.append_eq_empty_iff.1 empty).2 (by decide)
    · exact bracketFirst_itemLine item
  · refine List.pairwise_cons.2 ⟨?_, inside.ordered⟩
    intro _ mem
    obtain ⟨p, among, rfl⟩ := List.mem_map.1 mem
    have behind := (listed.stands p among).before_length.1
    simp only [ItemPlace.within, ItemPlace.trimmed, String.length_append]
    omega

mutual

theorem listed_block (n : Node) : Listed (blockPlaces n) (block n) := by
  match n with
  | .heading level title children =>
    have listed := (listed_forest children).within
      (commandLine (sectionCommand level) (inlines title)) ""
    rw [String.append_empty] at listed
    rw [blockPlaces, block]
    exact listed
  | .list kind entries =>
    have listed := (listed_items entries).within
      (command "begin" (listEnvironment kind) ++ "\n") (commandLine "end" (listEnvironment kind))
    rw [blockPlaces, block, environment, String.append_empty]
    exact listed
  | .paragraph _ | .embed _ | .figure _ _ | .code _ _ | .quote _ | .displayMath _ =>
    rw [blockPlaces]
    exact .nil _

theorem listed_forest (forest : List Node) : Listed (forestPlaces forest) (render forest) := by
  match forest with
  | [] => exact .nil _
  | n :: ns =>
    rw [forestPlaces, render]
    exact (listed_block n).append (listed_forest ns)

theorem listed_items (entries : List (List Node)) :
    Listed (itemPlaces entries) (items entries) := by
  match entries with
  | [] => exact .nil _
  | item :: more =>
    rw [itemPlaces, items]
    exact (listed_item (listed_forest item)).append (listed_items more)

end

mutual

theorem perm_blockPlaces (n : Node) :
    ((blockPlaces n).map (·.item)).Perm (n.allBlocksOne.flatMap Node.listItems) := by
  match n with
  | .heading level title children =>
    rw [blockPlaces, List.map_map]
    exact perm_forestPlaces children
  | .list kind entries =>
    rw [blockPlaces, List.map_map]
    exact perm_itemPlaces entries
  | .paragraph _ | .embed _ | .figure _ _ | .code _ _ | .quote _ | .displayMath _ =>
    rw [blockPlaces]
    exact .nil

theorem perm_forestPlaces (forest : List Node) :
    ((forestPlaces forest).map (·.item)).Perm
      ((Node.allBlocks forest).flatMap Node.listItems) := by
  match forest with
  | [] => exact .nil
  | n :: ns =>
    rw [forestPlaces, List.map_append, List.map_map, List.map_map, Node.allBlocks,
      List.flatMap_append]
    exact (perm_blockPlaces n).append (perm_forestPlaces ns)

theorem perm_itemPlaces (entries : List (List Node)) :
    ((itemPlaces entries).map (·.item)).Perm
      (entries ++ (Node.allItemBlocks entries).flatMap Node.listItems) := by
  match entries with
  | [] => exact .nil
  | item :: more =>
    have both := (perm_forestPlaces item).append (perm_itemPlaces more)
    have swapped := List.perm_append_comm_assoc
      ((Node.allBlocks item).flatMap Node.listItems) more
      ((Node.allItemBlocks more).flatMap Node.listItems)
    rw [itemPlaces, Node.allItemBlocks, List.flatMap_append]
    simp only [List.map_append, List.map_cons, List.map_map]
    exact (both.trans swapped).cons item

end

/-- Where the items of a forest are written. Every item of every list has one place, right behind
its command, and no two have the same. A bracket stands there just when the item begins with one:
with a paragraph whose first character is a bracket of literal text or of a link. -/
theorem item_followed_by_bracket (forest : List Node) :
    ((forestPlaces forest).map (·.item)).Perm ((Node.allBlocks forest).flatMap Node.listItems) ∧
      (forestPlaces forest).Pairwise (fun p q => p.before.length < q.before.length) ∧
      ∀ p ∈ forestPlaces forest,
        p.before ++ p.after = render forest ∧ (∃ before, p.before = before ++ "\\item ") ∧
          bracketFirst p.after = Node.opensBracket p.item := by
  obtain ⟨stands, ordered⟩ := listed_forest forest
  refine ⟨perm_forestPlaces forest, ordered, fun p among => ?_⟩
  have here := stands p among
  exact ⟨here.whole, here.command, here.bracket⟩

/-- A list in an item, with brackets in literal text, in a link and in emphasised text. -/
def bracketItems : List Node :=
  [.list .numbered
    [[.paragraph [.text "[a] x"],
      .list .bulleted
        [[.paragraph [.emphasis [.text "[b]"]]],
        [.quote [], .paragraph [.text "", .link ⟨"c", none, some "[c]"⟩]],
        []]]]]

theorem item_followed_by_bracket_bracketItems :
    (forestPlaces bracketItems).map (fun p => bracketFirst p.after) =
      [true, false, true, false] := by
  obtain ⟨_, _, stands⟩ := item_followed_by_bracket bracketItems
  rw [List.map_congr_left fun p among => (stands p among).2.2]
  rfl

/-- LaTeX takes the note for the label of the item. -/
theorem note_taken_for_label :
    render [.list .bulleted [[.paragraph [.text "[note] x"]]]] =
        "\\begin\x7bitemize\x7d\n\\item [note] x\n\\end\x7bitemize\x7d\n" ∧
      (forestPlaces [.list .bulleted [[.paragraph [.text "[note] x"]]]]).map
          (fun p => (p.before, p.after)) =
        [("\\begin\x7bitemize\x7d\n\\item ", "[note] x\n\\end\x7bitemize\x7d\n")] := by
  decide +kernel

end Latex

end Longform
