import Longform.Proofs.Forest

/-!
# Forests that grow

A forest can be made in one pass over its blocks. The headings whose sections are
not over are kept open, innermost first. A heading closes those that are not above
its level, and every other block is put under the innermost one; in the end all of
them are closed.

`Growing.ended` is the forest that is due when blocks are still to come, told by
sections. No block changes it when it is taken in (`ended_place`), so that the
pass makes the forest of its blocks (`grow_eq_nest`).
-/

namespace Longform.Node

variable {level deeper : Nat} {blocks before : List Node} {n : Node}

/-! ## Sections -/

/-- Blocks that end a section have no part in it. -/
theorem owned_of_closes (closes : Closes level blocks) :
    owned level blocks = [] ∧ unowned level blocks = blocks := by
  cases blocks with
  | nil => exact ⟨rfl, rfl⟩
  | cons n rest =>
    have ends := closes n rfl
    constructor
    · rw [owned, List.takeWhile_cons, ends]
      rfl
    · rw [unowned, List.dropWhile_cons, ends]
      rfl

/-- Blocks that do not end a section belong to it, and what follows them decides where it ends. -/
theorem owned_append_of_deeper (inside : Deeper level before) (blocks : List Node) :
    owned level (before ++ blocks) = before ++ owned level blocks ∧
      unowned level (before ++ blocks) = unowned level blocks := by
  have kept : ∀ n ∈ before, (!endsSection level n) = true := by
    intro n mem
    rw [inside n mem, Bool.not_false]
  exact ⟨List.takeWhile_append_of_pos kept, List.dropWhile_append_of_pos kept⟩

theorem Deeper.mono (h : Deeper deeper blocks) (le : level ≤ deeper) : Deeper level blocks := by
  intro n mem
  have outside := h n mem
  cases n with
  | heading l t c =>
    simp only [endsSection, decide_eq_false_iff_not] at outside ⊢
    omega
  | _ => rfl

theorem Closes.owned (closes : Closes deeper blocks) : Closes deeper (owned level blocks) := by
  intro n first
  cases blocks with
  | nil => cases first
  | cons b rest =>
    rw [Node.owned, List.takeWhile_cons] at first
    split at first
    · exact closes n first
    · cases first

/-- The blocks of a section are told from those after it. -/
theorem owned_append (inside : Deeper level before) (closes : Closes level blocks) :
    owned level (before ++ blocks) = before ∧ unowned level (before ++ blocks) = blocks := by
  obtain ⟨part, rest⟩ := owned_append_of_deeper inside blocks
  obtain ⟨none, all⟩ := owned_of_closes closes
  rw [part, rest, none, all, List.append_nil]
  exact ⟨rfl, rfl⟩

/-- The section of a deeper heading ends before that of the heading it stands under. -/
theorem owned_within (lt : level < deeper) (blocks : List Node) :
    owned deeper (owned level blocks) = owned deeper blocks ∧
      unowned deeper (owned level blocks) = owned level (unowned deeper blocks) ∧
      unowned level blocks = unowned level (unowned deeper blocks) := by
  have own := deeper_owned deeper blocks
  have others : Closes deeper (owned level (unowned deeper blocks)) :=
    (closes_unowned deeper blocks).owned
  obtain ⟨part, rest⟩ := owned_append_of_deeper (own.mono (Nat.le_of_lt lt)) (unowned deeper blocks)
  obtain ⟨first, second⟩ := owned_append own others
  rw [owned_append_unowned] at part rest
  rw [part]
  exact ⟨first, second, rest⟩

/-! ## Growing -/

/-- A forest that is being made: the headings that are open, innermost first, and the blocks at the
top level before them. -/
structure Growing where
  opened : List Heading
  top : List Node

namespace Growing

/-- Puts a block under the innermost open heading, or at the top level where none is open. -/
def hang (g : Growing) (n : Node) : Growing :=
  match g.opened with
  | [] => ⟨[], g.top ++ [n]⟩
  | h :: above => ⟨⟨h.level, h.title, h.children ++ [n]⟩ :: above, g.top⟩

theorem length_hang (g : Growing) (n : Node) : (g.hang n).opened.length = g.opened.length := by
  rw [hang]
  split
  · next none => rw [none]
  · next some => rw [some, List.length_cons, List.length_cons]

/-- Closes open headings from the innermost one on, as long as they are over. -/
def closeWhile (finished : Heading → Bool) (g : Growing) : Growing :=
  match g with
  | ⟨[], top⟩ => ⟨[], top⟩
  | ⟨h :: above, top⟩ =>
    if finished h then closeWhile finished (hang ⟨above, top⟩ h.toNode) else ⟨h :: above, top⟩
termination_by g.opened.length
decreasing_by
  rw [length_hang]
  exact Nat.lt_succ_self above.length

/-- Takes in a block. -/
def place (g : Growing) : Node → Growing
  | .heading level title children =>
    let rest := g.closeWhile fun h => level ≤ h.level
    ⟨⟨level, title, children⟩ :: rest.opened, rest.top⟩
  | n => g.hang n

end Growing

/-- Makes a forest in one pass. -/
def grow (blocks : List Node) : List Node :=
  ((blocks.foldl Growing.place ⟨[], []⟩).closeWhile fun _ => true).top

namespace Growing

variable {g : Growing} {h : Heading} {finished : Heading → Bool}

/-- The forest that is due, with `blocks` still to come: every open heading owns those of its
section. -/
def ended (g : Growing) (blocks : List Node) : List Node :=
  match g with
  | ⟨[], top⟩ => top ++ nest blocks
  | ⟨h :: above, top⟩ =>
    ended (hang ⟨above, top⟩ (.heading h.level h.title (h.children ++ nest (owned h.level blocks))))
      (unowned h.level blocks)
termination_by g.opened.length
decreasing_by
  rw [length_hang]
  exact Nat.lt_succ_self above.length

/-! ## Steps -/

/-- A block that is no heading belongs where it is put. -/
theorem ended_hang (none : n.level? = none) : (g.hang n).ended blocks = g.ended (n :: blocks) := by
  have stays : ∀ level, Deeper level [n] := by
    intro level m mem
    rw [List.mem_singleton.1 mem]
    cases n with
    | heading l t c => cases none
    | _ => rfl
  obtain ⟨_ | ⟨h, above⟩, top⟩ := g
  · rw [hang, ended, ended, nest_cons_of_level? none, List.append_assoc]
    rfl
  · obtain ⟨part, rest⟩ := owned_append_of_deeper (stays h.level) blocks
    rw [List.singleton_append] at part rest
    rw [hang, ended, ended, part, rest, List.singleton_append, nest_cons_of_level? none,
      List.append_assoc]
    rfl

/-- A heading that is opened under a higher one owns its section of that one's. -/
theorem ended_open (under : ∀ p ∈ g.opened.head?, p.level < h.level) :
    ended ⟨h :: g.opened, g.top⟩ blocks = g.ended (h.toNode :: blocks) := by
  obtain ⟨_ | ⟨p, above⟩, top⟩ := g
  · rw [ended, ended, hang, ended, Heading.toNode, nest_heading, List.append_assoc]
    rfl
  · have lt : p.level < h.level := under p rfl
    have inside : Deeper p.level [h.toNode] := by
      intro m mem
      rw [List.mem_singleton.1 mem, Heading.toNode, endsSection]
      exact decide_eq_false (Nat.not_le.2 lt)
    obtain ⟨part, rest⟩ := owned_append_of_deeper inside blocks
    obtain ⟨own, others, after⟩ := owned_within lt blocks
    rw [List.singleton_append] at part rest
    rw [ended, hang, ended, ended, part, rest, List.singleton_append, Heading.toNode, nest_heading,
      own, others, after, List.append_assoc]
    rfl

/-- To close headings whose sections are over changes nothing. -/
theorem ended_closeWhile (isOver : ∀ h, finished h = true → Closes h.level blocks) (g : Growing) :
    (g.closeWhile finished).ended blocks = g.ended blocks := by
  fun_induction closeWhile finished g with
  | case1 => rfl
  | case2 h above top closed ih =>
    obtain ⟨none, all⟩ := owned_of_closes (isOver h closed)
    rw [ih, ended, none, all, nest, List.append_nil]
    rfl
  | case3 => rfl

/-- The innermost heading that is left open is not over. -/
theorem head?_closeWhile (finished : Heading → Bool) (g : Growing) :
    ∀ p ∈ (g.closeWhile finished).opened.head?, finished p = false := by
  fun_induction closeWhile finished g with
  | case1 => exact nofun
  | case2 h above top _ ih => exact ih
  | case3 h above top goesOn =>
    rintro p ⟨⟩
    exact eq_false_of_ne_true goesOn

/-- The forest that is due stays the same when a block is taken in. -/
theorem ended_place (g : Growing) (n : Node) (blocks : List Node) :
    (g.place n).ended blocks = g.ended (n :: blocks) := by
  rcases level : n.level? with _ | l
  · have other : g.place n = g.hang n := by
      cases n with
      | heading l t c => cases level
      | _ => rfl
    rw [other, ended_hang level]
  · cases n with
    | heading l title children =>
      have under : ∀ p ∈ (g.closeWhile fun h => l ≤ h.level).opened.head?, p.level < l := by
        intro p innermost
        have goesOn := head?_closeWhile _ g p innermost
        exact Nat.not_le.1 (of_decide_eq_false goesOn)
      have isOver : ∀ h : Heading, decide (l ≤ h.level) = true →
          Closes h.level (.heading l title children :: blocks) := by
        rintro h le m ⟨⟩
        exact le
      exact (ended_open (h := ⟨l, title, children⟩) under).trans (ended_closeWhile isOver g)
    | _ => cases level

theorem ended_foldl (blocks : List Node) (g : Growing) :
    (blocks.foldl place g).ended [] = g.ended blocks := by
  induction blocks generalizing g with
  | nil => rfl
  | cons n blocks ih => rw [List.foldl_cons, ih, ended_place]

end Growing

/-- One pass over the blocks makes their forest. -/
theorem grow_eq_nest (blocks : List Node) : grow blocks = nest blocks := by
  have due := Growing.ended_foldl blocks ⟨[], []⟩
  rw [grow]
  generalize blocks.foldl Growing.place ⟨[], []⟩ = g at due ⊢
  have closed : (g.closeWhile fun _ => true).ended [] = g.ended [] :=
    Growing.ended_closeWhile (fun _ _ _ mem => by cases mem) g
  have none := Growing.head?_closeWhile (fun _ => true) g
  rcases last : g.closeWhile fun _ => true with ⟨_ | ⟨h, _⟩, top⟩
  · rw [last, due, Growing.ended, Growing.ended, nest, List.append_nil, List.nil_append] at closed
    exact closed
  · rw [last] at none
    cases none h rfl

end Longform.Node
