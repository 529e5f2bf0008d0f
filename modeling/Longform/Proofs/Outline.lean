import Longform.Proofs.Growth

/-!
# Outlines

A forest of headings is an outline when it could have been made of a flat list:
what stands under a heading is deeper than the heading, and among siblings the
blocks that are no headings come first, and no heading is deeper than the one
before it. What list items hold does not matter.

* `isOutline_nest`: the forest of a flat list is an outline.
* `nest_flatten`: an outline is the forest of its blocks in reading order.
* `nest_inverse_flatten`: so flat lists and outlines are the same thing, and a
  flat list is nested in one way only, however its forest is made.
-/

namespace Longform.Node

/-! ## Siblings -/

/-- Whether the first of two siblings may stand before the second: it is no heading, or both are
headings and the second is not deeper. -/
def mayPrecede (a b : Node) : Bool :=
  match a.level?, b.level? with
  | none, _ => true
  | some _, none => false
  | some l, some k => k ≤ l

/-- Whether a block may stand under a heading of the given level. -/
def mayStandUnder (level : Nat) (n : Node) : Bool := n.level?.all (level < ·)

mutual

/-- `isOutline` for one block. -/
def isOutlineOne : Node → Bool
  | .heading level _ children => children.all (mayStandUnder level) && isOutline children
  | _ => true

/-- Whether a forest is an outline. -/
def isOutline : List Node → Bool
  | [] => true
  | n :: ns => isOutlineOne n && ns.all (mayPrecede n) && isOutline ns

end

variable {level : Nat} {title : List Inline} {n : Node} {nodes children blocks : List Node}

theorem mayStandUnder_iff : mayStandUnder level n = true ↔ endsSection level n = false := by
  cases n with
  | heading l t c => simp [mayStandUnder, level?, endsSection]
  | _ => simp [mayStandUnder, level?, endsSection]

theorem all_mayStandUnder_iff : nodes.all (mayStandUnder level) = true ↔ Deeper level nodes := by
  rw [List.all_eq_true]
  exact forall₂_congr fun _ _ => mayStandUnder_iff

/-- After a heading there are only headings, and they end its section. -/
theorem mayPrecede_heading_iff :
    mayPrecede (.heading level title children) n = true ↔ endsSection level n = true := by
  cases n with
  | heading l t c => simp [mayPrecede, level?, endsSection]
  | _ => simp [mayPrecede, level?, endsSection]

theorem mayPrecede_of_level? (h : n.level? = none) (m : Node) : mayPrecede n m = true := by
  rw [mayPrecede, h]

theorem isOutline_heading :
    isOutline (.heading level title children :: nodes) = true ↔
      (Deeper level children ∧ isOutline children = true) ∧
        (∀ n ∈ nodes, endsSection level n = true) ∧ isOutline nodes = true := by
  have after : nodes.all (mayPrecede (.heading level title children)) = true ↔
      ∀ n ∈ nodes, endsSection level n = true := by
    rw [List.all_eq_true]
    exact forall₂_congr fun _ _ => mayPrecede_heading_iff
  rw [isOutline, isOutlineOne, Bool.and_eq_true, Bool.and_eq_true, Bool.and_eq_true,
    all_mayStandUnder_iff, after, and_assoc]

theorem isOutline_cons_of_level? (h : n.level? = none) :
    isOutline (n :: nodes) = isOutline nodes := by
  have all : nodes.all (mayPrecede n) = true :=
    List.all_eq_true.2 fun m _ => mayPrecede_of_level? h m
  have one : isOutlineOne n = true := by
    cases n with
    | heading l t c => cases h
    | _ => rw [isOutlineOne]; nofun
  rw [isOutline, one, all, Bool.true_and, Bool.true_and]

/-! ## The forest of a flat list -/

/-- Where the blocks begin with one that ends a section of the given level, all blocks at the top of
their forest do. -/
theorem endsSection_of_mem_nest (closes : Closes level blocks) :
    ∀ n ∈ nest blocks, endsSection level n = true := by
  fun_induction nest blocks generalizing level with
  | case1 => exact fun n mem => by cases mem
  | case2 l title children rest _ after =>
    have first : endsSection level (.heading l title children) = true := closes _ rfl
    have le : l ≤ level := by simpa [endsSection] using first
    have others := after ((closes_unowned l rest).mono le)
    intro n mem
    rcases List.mem_cons.1 mem with rfl | mem
    · simpa [endsSection] using le
    · exact others n mem
  | case3 n rest other _ =>
    have ends := closes n rfl
    have none := level?_eq_none other
    cases n with
    | heading l t c => cases none
    | _ => cases ends

/-- A block at the top of the forest of deeper blocks is deeper. -/
theorem deeper_nest (deeper : Deeper level blocks) : Deeper level (nest blocks) := by
  fun_induction nest blocks with
  | case1 => exact deeper
  | case2 l title children rest _ after =>
    obtain ⟨first, others⟩ := List.forall_mem_cons.1 deeper
    have later : Deeper level (unowned l rest) := fun n mem =>
      others n ((List.dropWhile_sublist _).mem mem)
    exact List.forall_mem_cons.2 ⟨first, after later⟩
  | case3 n rest _ ih =>
    obtain ⟨first, others⟩ := List.forall_mem_cons.1 deeper
    exact List.forall_mem_cons.2 ⟨first, ih others⟩

theorem isOutline_nest (flat : Flat blocks) : isOutline (nest blocks) = true := by
  fun_induction nest blocks with
  | case1 => rw [isOutline]
  | case2 l title children rest below after =>
    obtain rfl := flat l title children (List.mem_cons_self ..)
    rw [List.nil_append, isOutline_heading]
    exact ⟨⟨deeper_nest (deeper_owned l rest), below flat.tail.owned⟩,
      endsSection_of_mem_nest (closes_unowned l rest), after flat.tail.unowned⟩
  | case3 n rest other ih =>
    rw [isOutline_cons_of_level? (level?_eq_none other)]
    exact ih flat.tail

/-! ## The blocks of an outline -/

theorem flat_flatten (nodes : List Node) : Flat (flatten nodes) := by
  induction nodes using headingInduction with
  | nil =>
    rw [flatten_nil]
    exact flat_of_level? nofun
  | heading level title children nodes ihChildren ihNodes =>
    rw [flatten_heading]
    intro l t c mem
    rcases List.mem_cons.1 mem with same | mem
    · cases same
      rfl
    · exact (ihChildren.append ihNodes) l t c mem
  | other n nodes h ih =>
    rw [flatten_cons_of_level? h]
    intro l t c mem
    rcases List.mem_cons.1 mem with rfl | mem
    · cases h
    · exact ih l t c mem

/-- In an outline all blocks under deeper headings are deeper. -/
theorem deeper_flatten (h : isOutline nodes = true) (deeper : Deeper level nodes) :
    Deeper level (flatten nodes) := by
  induction nodes using headingInduction generalizing level with
  | nil =>
    rw [flatten_nil]
    exact deeper
  | heading l title children nodes ihChildren ihNodes =>
    obtain ⟨⟨under, inner⟩, -, rest⟩ := isOutline_heading.1 h
    obtain ⟨first, others⟩ := List.forall_mem_cons.1 deeper
    have le : level ≤ l := by
      have lt : level < l := by simpa [endsSection] using first
      exact Nat.le_of_lt lt
    have below := ihChildren inner (under.mono le)
    rw [flatten_heading]
    intro n mem
    rcases List.mem_cons.1 mem with rfl | mem
    · exact first
    · rcases List.mem_append.1 mem with mem | mem
      · exact below n mem
      · exact ihNodes rest others n mem
  | other n nodes none ih =>
    obtain ⟨first, others⟩ := List.forall_mem_cons.1 deeper
    rw [isOutline_cons_of_level? none] at h
    rw [flatten_cons_of_level? none]
    exact List.forall_mem_cons.2 ⟨first, ih h others⟩

/-- The blocks of a forest begin with the first block of the forest, or the heading it is. -/
theorem closes_flatten (h : ∀ n ∈ nodes, endsSection level n = true) :
    Closes level (flatten nodes) := by
  cases nodes with
  | nil =>
    rw [flatten_nil]
    exact nofun
  | cons first nodes =>
    have ends := h first (List.mem_cons_self ..)
    cases first with
    | heading l title children =>
      rw [flatten_heading]
      rintro n ⟨⟩
      exact ends
    | _ => cases ends

/-- An outline, listed in reading order and nested again, is what it was. -/
theorem nest_flatten (h : isOutline nodes = true) : nest (flatten nodes) = nodes := by
  induction nodes using headingInduction with
  | nil => rw [flatten_nil, nest]
  | heading level title children nodes ihChildren ihNodes =>
    obtain ⟨⟨under, inner⟩, after, rest⟩ := isOutline_heading.1 h
    obtain ⟨own, others⟩ := owned_append (deeper_flatten inner under) (closes_flatten after)
    rw [flatten_heading, nest_heading, own, others, ihChildren inner, ihNodes rest, List.nil_append]
  | other n nodes none ih =>
    rw [isOutline_cons_of_level? none] at h
    rw [flatten_cons_of_level? none, nest_cons_of_level? none, ih h]

/-- Flat lists and outlines correspond: a flat list is what its forest lists in reading order, and
this forest is an outline; an outline lists a flat list, whose forest it is. One pass over a list,
with the headings that are open on a stack, makes this forest too. -/
theorem nest_inverse_flatten :
    (∀ blocks, grow blocks = nest blocks) ∧
      (∀ blocks, Flat blocks → flatten (nest blocks) = blocks ∧ isOutline (nest blocks) = true) ∧
      ∀ forest, isOutline forest = true →
        Flat (flatten forest) ∧ nest (flatten forest) = forest := by
  refine ⟨grow_eq_nest, ?_, ?_⟩
  · intro blocks flat
    exact ⟨flatten_nest flat, isOutline_nest flat⟩
  · intro forest outline
    exact ⟨flat_flatten forest, nest_flatten outline⟩

/-- Headings with a level left out and a shallower one after them, and a list with a heading. -/
def skipping : List Node :=
  [.paragraph [.text "lead"], .heading 3 [.text "Deep"] [], .paragraph [.text "x"],
    .heading 2 [.text "Shallow"] [], .heading 4 [.text "Deeper"] [],
    .list .bulleted [[.heading 1 [] []]]]

/-- The forest of these blocks. -/
def skippingForest : List Node :=
  [.paragraph [.text "lead"], .heading 3 [.text "Deep"] [.paragraph [.text "x"]],
    .heading 2 [.text "Shallow"]
      [.heading 4 [.text "Deeper"] [.list .bulleted [[.heading 1 [] []]]]]]

theorem nest_inverse_flatten_skipping :
    Flat skipping ∧ flatten (nest skipping) = skipping ∧ isOutline (nest skipping) = true ∧
      isOutline skippingForest = true ∧ flatten skippingForest = skipping ∧
      nest (flatten skippingForest) = skippingForest ∧ grow skipping = skippingForest := by
  have outline : isOutline skippingForest = true := by decide
  obtain ⟨onePass, ofList, ofForest⟩ := nest_inverse_flatten
  obtain ⟨flat, nested⟩ := ofForest skippingForest outline
  have listed : flatten skippingForest = skipping := rfl
  have grown : grow skipping = skippingForest := by
    rw [onePass, ← listed, nested]
  rw [listed] at flat
  obtain ⟨there, formed⟩ := ofList skipping flat
  exact ⟨flat, there, formed, outline, listed, nested, grown⟩

end Longform.Node
