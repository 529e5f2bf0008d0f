import Longform.Proofs.Limit
import Longform.Proofs.Nesting

/-!
# Which headings move with a forest

A forest that is put somewhere else takes along the headings that are reached
through headings alone. A heading in a list item keeps the level it has there,
and so does everything below it, although the embeds of list items are resolved
and may well bring headings with them.

* `Node.relevel` is the shift of every heading of a forest, `Node.relevelOuter`
  the shift that `Node.rebase` and `Node.lower` are.
* `Node.relevelOuter_eq_relevel_iff`: the two agree just where the shift keeps
  the levels found in list items.
* `Resolver.shifts_outside_lists`: so it is with moving, with lowering and with
  every embed whose blocks are put in.
-/

namespace Longform

namespace Node

/-! ## Levels -/

mutual

/-- The levels of the headings that a block is or holds. -/
def allLevelsOne : Node → List Nat
  | .heading level _ children => level :: allLevels children
  | .list _ items => itemLevels items
  | .paragraph _ | .embed _ | .figure _ _ | .code _ _ | .quote _ | .displayMath _ => []

/-- The levels of all headings of a forest, in list items too. -/
def allLevels : List Node → List Nat
  | [] => []
  | n :: ns => allLevelsOne n ++ allLevels ns

/-- The levels of the headings in the items of a list. -/
def itemLevels : List (List Node) → List Nat
  | [] => []
  | item :: items => allLevels item ++ itemLevels items

end

mutual

/-- `listedLevels` for one block. -/
def listedLevelsOne : Node → List Nat
  | .heading _ _ children => listedLevels children
  | n => allLevelsOne n

/-- The levels of the headings that stand in list items. -/
def listedLevels : List Node → List Nat
  | [] => []
  | n :: ns => listedLevelsOne n ++ listedLevels ns

end

theorem levels_nil : levels [] = [] := by
  rw [levels, flatten_nil, List.filterMap_nil]

theorem levels_heading (level : Nat) (title : List Inline) (children nodes : List Node) :
    levels (.heading level title children :: nodes) =
      level :: (levels children ++ levels nodes) := by
  rw [levels, flatten_heading, List.filterMap_cons, level?, List.filterMap_append, levels, levels]

theorem levels_cons_of_level? {n : Node} (h : n.level? = none) (nodes : List Node) :
    levels (n :: nodes) = levels nodes := by
  rw [levels, flatten_cons_of_level? h, List.filterMap_cons, h, levels]

theorem listedLevels_heading (level : Nat) (title : List Inline) (children nodes : List Node) :
    listedLevels (.heading level title children :: nodes) =
      listedLevels children ++ listedLevels nodes := by
  rw [listedLevels, listedLevelsOne]

theorem listedLevels_cons_of_level? {n : Node} (h : n.level? = none) (nodes : List Node) :
    listedLevels (n :: nodes) = allLevelsOne n ++ listedLevels nodes := by
  rw [listedLevels]
  cases n with
  | heading level title children => cases h
  | _ => rw [listedLevelsOne]; nofun

/-- Every heading is reached through headings alone, or it stands in a list item. -/
theorem allLevels_perm (nodes : List Node) :
    (allLevels nodes).Perm (levels nodes ++ listedLevels nodes) := by
  induction nodes using headingInduction with
  | nil => rw [allLevels, levels_nil, listedLevels, List.append_nil]
  | heading level title children nodes ihChildren ihNodes =>
    rw [allLevels, allLevelsOne, levels_heading, listedLevels_heading, List.cons_append,
      List.cons_append]
    refine .cons _ ((ihChildren.append ihNodes).trans ?_)
    rw [List.append_assoc, List.append_assoc]
    refine .append_left _ ?_
    rw [← List.append_assoc, ← List.append_assoc]
    exact .append_right _ List.perm_append_comm
  | other n nodes other ih =>
    rw [allLevels, levels_cons_of_level? other, listedLevels_cons_of_level? other]
    refine (ih.append_left _).trans ?_
    rw [← List.append_assoc, ← List.append_assoc]
    exact .append_right _ List.perm_append_comm

/-! ## Shifts -/

mutual

/-- `relevel` for one block. -/
def relevelOne (f : Nat → Nat) : Node → Node
  | .heading level title children => .heading (f level) title (relevel f children)
  | .list kind items => .list kind (relevelItems f items)
  | node => node

/-- Changes the level of every heading of a forest, in list items too. -/
def relevel (f : Nat → Nat) : List Node → List Node
  | [] => []
  | n :: ns => relevelOne f n :: relevel f ns

/-- `relevel` for the items of a list. -/
def relevelItems (f : Nat → Nat) : List (List Node) → List (List Node)
  | [] => []
  | item :: items => relevel f item :: relevelItems f items

end

mutual

/-- `relevelOuter` for one block. -/
def relevelOuterOne (f : Nat → Nat) : Node → Node
  | .heading level title children => .heading (f level) title (relevelOuter f children)
  | node => node

/-- Changes the level of every heading of a forest that is reached through headings alone. -/
def relevelOuter (f : Nat → Nat) : List Node → List Node
  | [] => []
  | n :: ns => relevelOuterOne f n :: relevelOuter f ns

end

variable (f : Nat → Nat)

theorem relevelOuterOne_of_level? {n : Node} (h : n.level? = none) : relevelOuterOne f n = n := by
  cases n with
  | heading level title children => cases h
  | _ => rw [relevelOuterOne]; nofun

/-- A shift leaves a forest as it is just when it keeps all levels. -/
theorem relevel_eq_self_iff (nodes : List Node) :
    relevel f nodes = nodes ↔ ∀ l ∈ allLevels nodes, f l = l := by
  induction nodes using forestInduction with
  | nil => simp [relevel, allLevels]
  | heading level title children nodes ihChildren ihNodes =>
    simp [relevel, relevelOne, allLevels, allLevelsOne, ihChildren, ihNodes, or_imp, forall_and,
      and_assoc]
  | leaf n nodes isLeaf ih =>
    cases n with
    | heading level title children => exact isLeaf.elim
    | list kind items => exact isLeaf.elim
    | embed link => exact isLeaf.elim
    | _ => simp [relevel, relevelOne, allLevels, allLevelsOne, ih]
  | noItems kind nodes ih =>
    simp [relevel, relevelOne, relevelItems, allLevels, allLevelsOne, itemLevels, ih]
  | item kind item items nodes ihItem ihRest =>
    simp only [relevel, relevelOne, relevelItems, allLevels, allLevelsOne, itemLevels,
      List.cons.injEq, Node.list.injEq, true_and, List.mem_append, or_imp, forall_and] at ihRest ⊢
    rw [ihItem, and_assoc, and_assoc, ihRest]
  | embed link nodes ih => simp [relevel, relevelOne, allLevels, allLevelsOne, ih]

theorem relevelOne_eq_self_iff (n : Node) :
    relevelOne f n = n ↔ ∀ l ∈ allLevelsOne n, f l = l := by
  have single := relevel_eq_self_iff f [n]
  simpa [relevel, allLevels] using single

/-- To shift the headings outside lists is to shift all of them just when the levels found in list
items are kept. -/
theorem relevelOuter_eq_relevel_iff (nodes : List Node) :
    relevelOuter f nodes = relevel f nodes ↔ ∀ l ∈ listedLevels nodes, f l = l := by
  induction nodes using headingInduction with
  | nil => simp [relevelOuter, relevel, listedLevels]
  | heading level title children nodes ihChildren ihNodes =>
    simp [relevelOuter, relevelOuterOne, relevel, relevelOne, listedLevels_heading, ihChildren,
      ihNodes, or_imp, forall_and]
  | other n nodes other ih =>
    have whole : n = relevelOne f n ↔ ∀ l ∈ allLevelsOne n, f l = l :=
      eq_comm.trans (relevelOne_eq_self_iff f n)
    rw [relevelOuter, relevel, relevelOuterOne_of_level? f other, List.cons.injEq, whole, ih,
      listedLevels_cons_of_level? other]
    simp only [List.mem_append, or_imp, forall_and]

theorem levels_relevelOuter (nodes : List Node) :
    levels (relevelOuter f nodes) = (levels nodes).map f := by
  induction nodes using headingInduction with
  | nil => rw [relevelOuter, levels_nil, List.map_nil]
  | heading level title children nodes ihChildren ihNodes =>
    rw [relevelOuter, relevelOuterOne, levels_heading, levels_heading, ihChildren, ihNodes,
      List.map_cons, List.map_append]
  | other n nodes other ih =>
    rw [relevelOuter, relevelOuterOne_of_level? f other, levels_cons_of_level? other,
      levels_cons_of_level? other, ih]

theorem listedLevels_relevelOuter (nodes : List Node) :
    listedLevels (relevelOuter f nodes) = listedLevels nodes := by
  induction nodes using headingInduction with
  | nil => rw [relevelOuter]
  | heading level title children nodes ihChildren ihNodes =>
    rw [relevelOuter, relevelOuterOne, listedLevels_heading, listedLevels_heading, ihChildren,
      ihNodes]
  | other n nodes other ih =>
    rw [relevelOuter, relevelOuterOne_of_level? f other, listedLevels_cons_of_level? other,
      listedLevels_cons_of_level? other, ih]

/-- The level that a heading of level `l` gets when it moves from under one of level `base` to under
one of level `ambient`. -/
def shiftedLevel (base ambient l : Nat) : Nat := ambient + (l - base)

theorem rebase_eq_relevelOuter (base ambient : Nat) (nodes : List Node) :
    rebase base ambient nodes = relevelOuter (shiftedLevel base ambient) nodes := by
  induction nodes using headingInduction with
  | nil => rw [rebase, relevelOuter]
  | heading level title children nodes ihChildren ihNodes =>
    rw [rebase, rebaseOne, relevelOuter, relevelOuterOne, ihChildren, ihNodes, shiftedLevel]
  | other n nodes other ih =>
    rw [rebase, rebaseOne_of_level? other, relevelOuter, relevelOuterOne_of_level? _ other, ih]

theorem lower_eq_relevelOuter (nodes : List Node) :
    lower nodes = relevelOuter (· - 1) nodes := by
  induction nodes using headingInduction with
  | nil => rw [lower, relevelOuter]
  | heading level title children nodes ihChildren ihNodes =>
    rw [lower, lowerOne, relevelOuter, relevelOuterOne, ihChildren, ihNodes]
  | other n nodes other ih =>
    rw [lower, lowerOne_of_level? other, relevelOuter, relevelOuterOne_of_level? _ other, ih]

/-- The forest `after` is `before` with every heading shifted that does not stand in a list item. -/
structure ShiftsOutsideLists (f : Nat → Nat) (before after : List Node) : Prop where
  outside : levels after = (levels before).map f
  listed : listedLevels after = listedLevels before
  /-- There are no other headings. -/
  all : (allLevels after).Perm ((levels before).map f ++ listedLevels before)
  everywhere_iff : after = relevel f before ↔ ∀ l ∈ listedLevels before, f l = l

theorem shiftsOutsideLists_relevelOuter (nodes : List Node) :
    ShiftsOutsideLists f nodes (relevelOuter f nodes) := by
  have outside := levels_relevelOuter f nodes
  have listed := listedLevels_relevelOuter f nodes
  have all := allLevels_perm (relevelOuter f nodes)
  rw [outside, listed] at all
  exact ⟨outside, listed, all, relevelOuter_eq_relevel_iff f nodes⟩

end Node

namespace Resolver

open Node (ShiftsOutsideLists shiftedLevel levels listedLevels)

variable {σ : Type} [Store σ]

/-- An embed is replaced by the blocks that its content resolves to, shifted outside lists. -/
theorem embed_shifts_outside_lists {fuel : Nat} {link : Link} {frame : Frame}
    {content : List Node} {inner : Resolved} {r r₁ r₂ : Resolver σ}
    (sought : Seeks Step.load r link (.content frame content) r₁)
    (inside : (walk (embed Step.load fuel) content).on (r₁.opened frame).entered =
      some (.ok inner, r₂)) :
    ∃ out, (embed Step.load (fuel + 1) link).on r = some (.ok out, r₂.left.closed) ∧
      ShiftsOutsideLists (shiftedLevel frame.level r.ambientLevel) inner.nodes out.nodes := by
  have ambient := ambientLevel_of_place (sought.place staysAt_load)
  refine ⟨_, embed_on_content sought inside, ?_⟩
  rw [ambient, moved, Node.rebase_eq_relevelOuter]
  exact Node.shiftsOutsideLists_relevelOuter _ _

/-- Moving a forest, lowering it, and putting in the blocks of an embed shift the headings that are
reached through headings alone, and no others. So they shift every heading just when the shift
leaves the headings in list items where they are: in lowering, when these are all of level zero. -/
theorem shifts_outside_lists :
    (∀ base ambient nodes, ShiftsOutsideLists (shiftedLevel base ambient) nodes
      (Node.rebase base ambient nodes)) ∧
    (∀ nodes, ShiftsOutsideLists (· - 1) nodes (Node.lower nodes)) ∧
    (∀ nodes, Node.lower nodes = Node.relevel (· - 1) nodes ↔ ∀ l ∈ listedLevels nodes, l = 0) ∧
    ∀ {fuel : Nat} {link : Link} {frame : Frame} {content : List Node} {inner : Resolved}
      {r r₁ r₂ : Resolver σ}, Seeks Step.load r link (.content frame content) r₁ →
      (walk (embed Step.load fuel) content).on (r₁.opened frame).entered = some (.ok inner, r₂) →
      ∃ out, (embed Step.load (fuel + 1) link).on r = some (.ok out, r₂.left.closed) ∧
        ShiftsOutsideLists (shiftedLevel frame.level r.ambientLevel) inner.nodes out.nodes := by
  refine ⟨?_, ?_, ?_, embed_shifts_outside_lists⟩
  · intro base ambient nodes
    rw [Node.rebase_eq_relevelOuter]
    exact Node.shiftsOutsideLists_relevelOuter _ nodes
  · intro nodes
    rw [Node.lower_eq_relevelOuter]
    exact Node.shiftsOutsideLists_relevelOuter _ nodes
  · intro nodes
    have keeps : ∀ l, l - 1 = l ↔ l = 0 := by omega
    rw [Node.lower_eq_relevelOuter, Node.relevelOuter_eq_relevel_iff]
    simp only [keeps]

/-- A note with a heading, and one that embeds it in a list item and again after the list. -/
def outlineAndLeaf : Memory :=
  ⟨[(⟨"leaf.md"⟩, "# Leaf\n"), (⟨"outline.md"⟩, "# Top\n- ![[leaf]]\n\n![[leaf]]\n")], [], []⟩

/-- Under a chapter of level two, with two embeds allowed inside each other. -/
def inChapter : Resolver Memory :=
  (initial outlineAndLeaf .empty (some 2)).opened ⟨"Chapter", 2⟩

theorem shifts_outside_lists_outlineAndLeaf :
    ∃ inner out r', (resolveEmbed ⟨"outline", none, none⟩).on inChapter = some (.ok out, r') ∧
      ShiftsOutsideLists (shiftedLevel 0 2) inner out.nodes ∧
      levels out.nodes = [3, 4] ∧ listedLevels out.nodes = [2] := by
  obtain ⟨-, -, -, embeds⟩ := shifts_outside_lists (σ := Memory)
  obtain ⟨t, r₁, sought⟩ := Seeks.exists total_load inChapter ⟨"outline", none, none⟩
  have sort : ((seek Step.load ⟨"outline", none, none⟩).on inChapter).map (fun (outcome, r₁) =>
      match outcome with
      | .ok (.content frame _) => some (frame, r₁.limit, r₁.depth)
      | _ => none) = some (some (⟨"outline", 0⟩, some 2, 0)) := by decide +kernel
  rw [sought.on] at sort
  cases t with
  | done resolved => cases sort
  | content frame content =>
    simp only [Option.map_some, Option.some.injEq, Prod.mk.injEq] at sort
    obtain ⟨rfl, limit, depth⟩ := sort
    have inside : ((r₁.opened ⟨"outline", 0⟩).entered).limit = some 2 := limit
    have once : ((r₁.opened ⟨"outline", 0⟩).entered).depth = 1 := congrArg (· + 1) depth
    obtain ⟨inner, r₂, run⟩ := unroll_on_limit inside content
    rw [unroll_on, fuel_of_limit inside, once] at run
    obtain ⟨out, whole, shifts⟩ := embeds sought run
    have found : ((embed Step.load 3 ⟨"outline", none, none⟩).on inChapter).map (fun (outcome, _) =>
        outcome.toOption.map fun out => (levels out.nodes, listedLevels out.nodes)) =
          some (some ([3, 4], [2])) := by decide +kernel
    rw [whole] at found
    simp only [Option.map_some, Except.toOption, Option.some.injEq, Prod.mk.injEq] at found
    exact ⟨inner.nodes, out, _, whole, shifts, found.1, found.2⟩

/-- The heading of a note that is embedded in a list item: it is of level one in the note and of
level two below the heading there, where the list puts it, and with the list it should come to be of
level four below a chapter of level two. It stays of level two. -/
theorem listed_heading_not_shifted :
    Node.rebase 0 2 [.list .bulleted [[.heading 2 [] []]]] ≠
      Node.relevel (shiftedLevel 0 2) [.list .bulleted [[.heading 2 [] []]]] ∧
    Node.lower [.list .bulleted [[.heading 2 [] []]]] ≠
      Node.relevel (· - 1) [.list .bulleted [[.heading 2 [] []]]] ∧
    shiftedLevel 0 2 2 = 4 ∧
    ∃ out r', (unroll [.embed ⟨"outline", none, none⟩]).on inChapter = some (.ok out, r') ∧
      levels out.nodes = [3, 4] ∧ listedLevels out.nodes = [2] := by
  refine ⟨?_, ?_, rfl, ?_⟩
  · intro same
    have levels := congrArg Node.allLevels same
    exact absurd levels (by decide +kernel)
  · intro same
    have levels := congrArg Node.allLevels same
    exact absurd levels (by decide +kernel)
  · obtain ⟨out, r', run⟩ := unroll_on_limit (r := inChapter) rfl [.embed ⟨"outline", none, none⟩]
    have found : ((unroll [.embed ⟨"outline", none, none⟩]).on inChapter).map (fun (outcome, _) =>
        outcome.toOption.map fun out => (levels out.nodes, listedLevels out.nodes)) =
          some (some ([3, 4], [2])) := by decide +kernel
    rw [run] at found
    simp only [Option.map_some, Except.toOption, Option.some.injEq, Prod.mk.injEq] at found
    exact ⟨out, r', run, found⟩

end Resolver

end Longform
