import Longform.Forest

/-!
# Forests and flat lists of blocks

A note is read as a flat list of blocks, in which no heading owns anything yet,
and `Node.nest` makes a forest of it.

* `forestInduction` follows a forest the way it is walked: what a block holds
  first, then the blocks after it.
* `flatten_nest`: listing a forest in reading order gives the flat list back.
* `flatten_rebase`: moving a forest moves every heading of that list alike.
* `findNormalized?_nest`: the heading that is found in a forest is the first one
  of the list with its title, and owns the blocks up to the next heading that is
  not deeper.
-/

namespace Longform.Node

/-! ## Induction -/

/-- Blocks that hold no others and are no embeds. -/
def IsLeaf : Node → Prop
  | .paragraph _ | .figure _ _ | .code _ _ | .quote _ | .displayMath _ => True
  | .heading _ _ _ | .list _ _ | .embed _ => False

theorem forestInduction {motive : List Node → Prop}
    (nil : motive [])
    (heading : ∀ level title children nodes,
      motive children → motive nodes → motive (.heading level title children :: nodes))
    (leaf : ∀ n nodes, IsLeaf n → motive nodes → motive (n :: nodes))
    (noItems : ∀ kind nodes, motive nodes → motive (.list kind [] :: nodes))
    (item : ∀ kind item items nodes,
      motive item → motive (.list kind items :: nodes) →
      motive (.list kind (item :: items) :: nodes))
    (embed : ∀ link nodes, motive nodes → motive (.embed link :: nodes)) :
    ∀ nodes, motive nodes
  | [] => nil
  | .heading level title children :: nodes =>
    heading level title children nodes
      (forestInduction nil heading leaf noItems item embed children)
      (forestInduction nil heading leaf noItems item embed nodes)
  | .list kind [] :: nodes =>
    noItems kind nodes (forestInduction nil heading leaf noItems item embed nodes)
  | .list kind (first :: items) :: nodes =>
    item kind first items nodes
      (forestInduction nil heading leaf noItems item embed first)
      (forestInduction nil heading leaf noItems item embed (.list kind items :: nodes))
  | .embed link :: nodes =>
    embed link nodes (forestInduction nil heading leaf noItems item embed nodes)
  | .paragraph content :: nodes =>
    leaf (.paragraph content) nodes trivial
      (forestInduction nil heading leaf noItems item embed nodes)
  | .figure file caption :: nodes =>
    leaf (.figure file caption) nodes trivial
      (forestInduction nil heading leaf noItems item embed nodes)
  | .code language content :: nodes =>
    leaf (.code language content) nodes trivial
      (forestInduction nil heading leaf noItems item embed nodes)
  | .quote lines :: nodes =>
    leaf (.quote lines) nodes trivial
      (forestInduction nil heading leaf noItems item embed nodes)
  | .displayMath text :: nodes =>
    leaf (.displayMath text) nodes trivial
      (forestInduction nil heading leaf noItems item embed nodes)
termination_by nodes => sizeOf nodes

/-! ## Reading order -/

/-- The level of a heading. -/
def level? : Node → Option Nat
  | .heading level _ _ => some level
  | .paragraph _ | .list _ _ | .embed _ | .figure _ _ | .code _ _ | .quote _ | .displayMath _ =>
    none

/-- Induction on a forest through the headings only. -/
theorem headingInduction {motive : List Node → Prop}
    (nil : motive [])
    (heading : ∀ level title children nodes,
      motive children → motive nodes → motive (.heading level title children :: nodes))
    (other : ∀ n nodes, n.level? = none → motive nodes → motive (n :: nodes))
    (nodes : List Node) : motive nodes := by
  match nodes with
  | [] => exact nil
  | n :: nodes =>
    have ih := headingInduction nil heading other nodes
    match n with
    | .heading level title children =>
      exact heading level title children nodes (headingInduction nil heading other children) ih
    | .paragraph content => exact other _ nodes rfl ih
    | .list kind items => exact other _ nodes rfl ih
    | .embed link => exact other _ nodes rfl ih
    | .figure file caption => exact other _ nodes rfl ih
    | .code language content => exact other _ nodes rfl ih
    | .quote lines => exact other _ nodes rfl ih
    | .displayMath text => exact other _ nodes rfl ih
termination_by sizeOf nodes

theorem level?_of_isLeaf {n : Node} (isLeaf : IsLeaf n) : n.level? = none := by
  cases n with
  | heading level title children => exact isLeaf.elim
  | _ => rfl

theorem flattenOne_of_level? {n : Node} (h : n.level? = none) : flattenOne n = [n] := by
  cases n with
  | heading level title children => cases h
  | _ => rw [flattenOne]; nofun

theorem flatten_nil : flatten [] = [] := by
  rw [flatten]

theorem flatten_cons_of_level? {n : Node} (h : n.level? = none) (nodes : List Node) :
    flatten (n :: nodes) = n :: flatten nodes := by
  rw [flatten, flattenOne_of_level? h]
  rfl

theorem flatten_heading (level : Nat) (title : List Inline) (children nodes : List Node) :
    flatten (.heading level title children :: nodes) =
      .heading level title [] :: (flatten children ++ flatten nodes) := by
  rw [flatten, flattenOne]
  rfl

theorem flatten_append (a b : List Node) : flatten (a ++ b) = flatten a ++ flatten b := by
  induction a with
  | nil => rfl
  | cons n a ih => rw [List.cons_append, flatten, flatten, ih, List.append_assoc]

/-! ## Flat lists -/

/-- No heading owns anything. -/
def Flat (blocks : List Node) : Prop :=
  ∀ level title children, .heading level title children ∈ blocks → children = []

theorem Flat.of_sublist {part blocks : List Node} (flat : Flat blocks)
    (sub : List.Sublist part blocks) : Flat part :=
  fun level title children mem => flat level title children (sub.mem mem)

theorem Flat.tail {n : Node} {blocks : List Node} (flat : Flat (n :: blocks)) : Flat blocks :=
  flat.of_sublist (List.sublist_cons_self n blocks)

theorem Flat.owned {level : Nat} {blocks : List Node} (flat : Flat blocks) :
    Flat (Node.owned level blocks) :=
  flat.of_sublist (List.takeWhile_sublist _)

theorem Flat.unowned {level : Nat} {blocks : List Node} (flat : Flat blocks) :
    Flat (Node.unowned level blocks) :=
  flat.of_sublist (List.dropWhile_sublist _)

theorem Flat.append {a b : List Node} (left : Flat a) (right : Flat b) : Flat (a ++ b) := by
  intro level title children mem
  rcases List.mem_append.1 mem with mem | mem
  · exact left level title children mem
  · exact right level title children mem

theorem flat_of_level? {blocks : List Node} (h : ∀ n ∈ blocks, n.level? = none) : Flat blocks := by
  intro level title children mem
  cases h _ mem

theorem nest_heading (level : Nat) (title : List Inline) (children rest : List Node) :
    nest (.heading level title children :: rest) =
      .heading level title (children ++ nest (owned level rest)) :: nest (unowned level rest) := by
  rw [nest]

theorem nest_cons_of_level? {n : Node} (h : n.level? = none) (rest : List Node) :
    nest (n :: rest) = n :: nest rest := by
  cases n with
  | heading level title children => cases h
  | _ =>
    rw [nest]
    intro level title children same
    cases same

theorem level?_eq_none {n : Node}
    (h : ∀ level title children, n = .heading level title children → False) :
    n.level? = none := by
  cases n with
  | heading level title children => exact (h level title children rfl).elim
  | _ => rfl

/-- A forest, listed in reading order, is the list it was made of. -/
theorem flatten_nest {blocks : List Node} (flat : Flat blocks) :
    flatten (nest blocks) = blocks := by
  fun_induction nest blocks with
  | case1 => rw [flatten]
  | case2 level title children rest below after =>
    obtain rfl := flat level title children (List.mem_cons_self ..)
    rw [flatten_heading, List.nil_append, below flat.tail.owned, after flat.tail.unowned,
      owned_append_unowned]
  | case3 n rest other ih =>
    rw [flatten_cons_of_level? (level?_eq_none other), ih flat.tail]

/-! ## Moving -/

/-- A heading of a flat list, moved from under a heading of level `base` to under one of level
`ambient`. -/
def shift (base ambient : Nat) : Node → Node
  | .heading level title children => .heading (ambient + (level - base)) title children
  | n => n

theorem shift_of_level? {n : Node} (h : n.level? = none) (base ambient : Nat) :
    shift base ambient n = n := by
  cases n with
  | heading level title children => cases h
  | _ => rfl

theorem rebaseOne_of_level? {n : Node} (h : n.level? = none) (base ambient : Nat) :
    rebaseOne base ambient n = n := by
  cases n with
  | heading level title children => cases h
  | _ => rw [rebaseOne]; nofun

/-- To move a forest is to move the headings of its list. -/
theorem flatten_rebase (base ambient : Nat) (nodes : List Node) :
    flatten (rebase base ambient nodes) = (flatten nodes).map (shift base ambient) := by
  induction nodes using headingInduction with
  | nil => rw [rebase, flatten, List.map_nil]
  | heading level title children nodes ihChildren ihNodes =>
    rw [rebase, rebaseOne, flatten_heading, flatten_heading, ihChildren, ihNodes, List.map_cons,
      List.map_append]
    rfl
  | other n nodes h ih =>
    rw [rebase, rebaseOne_of_level? h, flatten_cons_of_level? h, flatten_cons_of_level? h, ih,
      List.map_cons, shift_of_level? h]

/-! ## Sections -/

/-- The first heading of a flat list whose title has the normalized form `wanted`, with the blocks
up to the next heading that is not deeper. -/
def cutSection? (wanted : String) : List Node → Option Heading
  | [] => none
  | .heading level title _ :: rest =>
    if normalizeTitle (Inline.plainText title) = wanted then
      some ⟨level, title, owned level rest⟩
    else cutSection? wanted rest
  | _ :: rest => cutSection? wanted rest

theorem cutSection?_cons_of_level? {wanted : String} {n : Node} (h : n.level? = none)
    (rest : List Node) : cutSection? wanted (n :: rest) = cutSection? wanted rest := by
  cases n with
  | heading level title children => cases h
  | _ => rw [cutSection?]; nofun

/-- The blocks begin with one that ends a section of the given level, or there are none. -/
def Closes (level : Nat) (blocks : List Node) : Prop :=
  ∀ n ∈ blocks.head?, endsSection level n = true

theorem closes_unowned (level : Nat) (blocks : List Node) :
    Closes level (unowned level blocks) := by
  intro n h
  have stops := List.head?_dropWhile_not (fun b => !endsSection level b) blocks
  rw [unowned] at h
  rw [Option.mem_def.1 h] at stops
  simpa using stops

theorem Closes.mono {level deeper : Nat} {blocks : List Node} (h : Closes level blocks)
    (le : level ≤ deeper) : Closes deeper blocks := by
  intro n first
  have ends := h n first
  cases n with
  | heading l title children =>
    simp only [endsSection, decide_eq_true_eq] at ends ⊢
    exact Nat.le_trans ends le
  | _ => cases ends

theorem owned_append_of_closes {level : Nat} {blocks : List Node} (h : Closes level blocks)
    (before : List Node) : owned level (before ++ blocks) = owned level before := by
  induction before with
  | nil =>
    cases blocks with
    | nil => rfl
    | cons n rest =>
      have ends := h n rfl
      simp [owned, ends]
  | cons n before ih =>
    rw [List.cons_append, owned, owned, List.takeWhile_cons, List.takeWhile_cons]
    split
    · exact congrArg _ ih
    · rfl

/-- No heading ends a section of the given level. -/
def Deeper (level : Nat) (blocks : List Node) : Prop :=
  ∀ n ∈ blocks, endsSection level n = false

theorem deeper_owned (level : Nat) (blocks : List Node) : Deeper level (owned level blocks) := by
  intro n h
  have kept := List.all_eq_true.1 List.all_takeWhile n h
  simpa using kept

/-- A section that lies inside a section is cut out alike with and without what follows. -/
theorem cutSection?_append {wanted : String} {level : Nat} {before blocks : List Node}
    (deeper : Deeper level before) (closes : Closes level blocks) :
    cutSection? wanted (before ++ blocks) =
      (cutSection? wanted before).or (cutSection? wanted blocks) := by
  induction before with
  | nil => rfl
  | cons n before ih =>
    have rest := ih fun m h => deeper m (List.mem_cons_of_mem n h)
    rcases hn : n.level? with _ | l
    · rw [List.cons_append, cutSection?_cons_of_level? hn, cutSection?_cons_of_level? hn, rest]
    · cases n with
      | heading l title children =>
        have lt : level < l := by
          have inside := deeper _ (List.mem_cons_self ..)
          simpa [endsSection] using inside
        rw [List.cons_append, cutSection?, cutSection?, rest,
          owned_append_of_closes (closes.mono (Nat.le_of_lt lt))]
        split <;> rfl
      | _ => cases hn

theorem findInOne?_of_level? {n : Node} (h : n.level? = none) (wanted : String) :
    findInOne? wanted n = none := by
  cases n with
  | heading level title children => cases h
  | _ => rw [findInOne?]; nofun

/-- A heading found in a forest is the one found in its list, and owns the forest of what follows
there. -/
theorem findNormalized?_nest {blocks : List Node} (flat : Flat blocks) (wanted : String) :
    findNormalized? wanted (nest blocks) =
      (cutSection? wanted blocks).map fun h => ⟨h.level, h.title, nest h.children⟩ := by
  fun_induction nest blocks with
  | case1 => rw [findNormalized?, cutSection?, Option.map_none]
  | case2 level title children rest below after =>
    obtain rfl := flat level title children (List.mem_cons_self ..)
    have cut : cutSection? wanted rest =
        (cutSection? wanted (owned level rest)).or (cutSection? wanted (unowned level rest)) := by
      rw [← cutSection?_append (deeper_owned level rest) (closes_unowned level rest),
        owned_append_unowned]
    rw [List.nil_append, findNormalized?, findInOne?, cutSection?, Heading.normalizedTitle,
      Heading.plainTitle]
    by_cases same : normalizeTitle (Inline.plainText title) = wanted
    · rw [if_pos same, if_pos same]
      rfl
    · rw [if_neg same, if_neg same, below flat.tail.owned, after flat.tail.unowned, cut]
      cases cutSection? wanted (owned level rest) <;> rfl
  | case3 n rest other ih =>
    have none := level?_eq_none other
    rw [findNormalized?, findInOne?_of_level? none, cutSection?_cons_of_level? none, ih flat.tail]

end Longform.Node
