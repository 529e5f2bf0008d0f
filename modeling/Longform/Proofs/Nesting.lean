import Longform.Proofs.Forest

/-!
# Nesting of headings

`Node.Nests level nodes` says that the headings of a forest below a heading of
the given level descend: each is deeper than the heading it stands under. What
stands in list items begins anew.

Moving a forest to another place keeps this (`Nests.rebase`, `Nests.lower`), and
where it holds no level is cut off at zero (`Nests.lt_of_mem_levels`). A forest
made of a flat list descends by itself (`nests_nest`), and so does the section
that is found in it (`Nests.of_find`).
-/

namespace Longform.Node

mutual

/-- `Nests` for one block. -/
def NestsOne (level : Nat) : Node → Prop
  | .heading l _ children => level < l ∧ Nests l children
  | .list _ items => NestsItems items
  | .paragraph _ | .embed _ | .figure _ _ | .code _ _ | .quote _ | .displayMath _ => True

/-- Every heading of a forest is deeper than the one it stands under, and than `level` where it
stands under none. In a list item headings stand under none, and have a level of at least one. -/
def Nests (level : Nat) : List Node → Prop
  | [] => True
  | n :: ns => NestsOne level n ∧ Nests level ns

/-- `Nests` for the items of a list. -/
def NestsItems : List (List Node) → Prop
  | [] => True
  | item :: items => Nests 0 item ∧ NestsItems items

end

variable {level shallower base ambient : Nat} {nodes : List Node}

theorem nests_nil (level : Nat) : Nests level [] := by
  rw [Nests]
  trivial

theorem nests_cons (level : Nat) (n : Node) (nodes : List Node) :
    Nests level (n :: nodes) ↔ NestsOne level n ∧ Nests level nodes := by
  rw [Nests]

theorem nests_heading (level l : Nat) (title : List Inline) (children nodes : List Node) :
    Nests level (.heading l title children :: nodes) ↔
      (level < l ∧ Nests l children) ∧ Nests level nodes := by
  rw [Nests, NestsOne]

theorem nestsOne_of_isLeaf {n : Node} (isLeaf : IsLeaf n) (level : Nat) : NestsOne level n := by
  cases n with
  | heading l title children => exact isLeaf.elim
  | list kind items => exact isLeaf.elim
  | embed link => exact isLeaf.elim
  | _ => rw [NestsOne]; trivial

theorem nests_append (level : Nat) (a b : List Node) :
    Nests level (a ++ b) ↔ Nests level a ∧ Nests level b := by
  induction a with
  | nil => simp [Nests]
  | cons n a ih => rw [List.cons_append, nests_cons, nests_cons, ih, and_assoc]

theorem nests_iff_forall : Nests level nodes ↔ ∀ n ∈ nodes, NestsOne level n := by
  induction nodes with
  | nil => simp [Nests]
  | cons n nodes ih => rw [nests_cons, ih, List.forall_mem_cons]

theorem NestsOne.of_level? {n : Node} (h : NestsOne level n) (other : n.level? = none)
    (level' : Nat) : NestsOne level' n := by
  cases n with
  | heading l title children => cases other
  | list kind items => rw [NestsOne] at h ⊢; exact h
  | _ => rw [NestsOne]; trivial

theorem Nests.mono (h : Nests level nodes) (le : shallower ≤ level) : Nests shallower nodes := by
  rw [nests_iff_forall] at h ⊢
  intro n mem
  have inside := h n mem
  rcases hn : n.level? with _ | l
  · exact inside.of_level? hn shallower
  · cases n with
    | heading l title children =>
      rw [NestsOne] at inside ⊢
      exact ⟨Nat.lt_of_le_of_lt le inside.1, inside.2⟩
    | _ => cases hn

/-! ## Moving -/

/-- A forest that descends below `base` descends below `ambient` once it is moved there. -/
theorem Nests.rebase (h : Nests base nodes) (ambient : Nat) :
    Nests ambient (Node.rebase base ambient nodes) := by
  -- Below a heading of the forest the blocks move from a level of their own.
  have general : ∀ nodes level, base ≤ level → Nests level nodes →
      Nests (ambient + (level - base)) (Node.rebase base ambient nodes) := by
    intro nodes
    induction nodes using headingInduction with
    | nil =>
      intro level _ _
      rw [Node.rebase]
      exact nests_nil _
    | heading l title children nodes ihChildren ihNodes =>
      intro level le h
      obtain ⟨⟨lt, inner⟩, rest⟩ := (nests_heading ..).1 h
      rw [Node.rebase, rebaseOne, nests_heading]
      refine ⟨⟨by omega, ihChildren l (by omega) inner⟩, ihNodes level le rest⟩
    | other n nodes hn ih =>
      intro level le h
      obtain ⟨first, rest⟩ := (nests_cons ..).1 h
      rw [Node.rebase, rebaseOne_of_level? hn, nests_cons]
      exact ⟨first.of_level? hn _, ih level le rest⟩
  simpa using general nodes base (Nat.le_refl base) h

theorem lowerOne_of_level? {n : Node} (h : n.level? = none) : lowerOne n = n := by
  cases n with
  | heading level title children => cases h
  | _ => rw [lowerOne]; nofun

/-- A forest that descends below a heading still does when both move up by one level. -/
theorem Nests.lower (h : Nests (level + 1) nodes) : Nests level (Node.lower nodes) := by
  induction nodes using headingInduction generalizing level with
  | nil =>
    rw [Node.lower]
    exact nests_nil _
  | heading l title children nodes ihChildren ihNodes =>
    obtain ⟨⟨lt, inner⟩, rest⟩ := (nests_heading ..).1 h
    obtain ⟨k, rfl⟩ : ∃ k, l = k + 1 := ⟨l - 1, by omega⟩
    rw [Node.lower, lowerOne, nests_heading]
    exact ⟨⟨by omega, ihChildren inner⟩, ihNodes rest⟩
  | other n nodes hn ih =>
    obtain ⟨first, rest⟩ := (nests_cons ..).1 h
    rw [Node.lower, lowerOne_of_level? hn, nests_cons]
    exact ⟨first.of_level? hn _, ih rest⟩

/-- The levels of the headings that move with a forest: those that are reached through headings
alone. -/
def levels (nodes : List Node) : List Nat := (flatten nodes).filterMap level?

/-- In a forest that descends below a heading, what moves with it is deeper than the heading. -/
theorem Nests.lt_of_mem_levels (h : Nests level nodes) : ∀ l ∈ levels nodes, level < l := by
  induction nodes using headingInduction generalizing level with
  | nil =>
    intro l mem
    rw [levels, flatten] at mem
    cases mem
  | heading l title children nodes ihChildren ihNodes =>
    obtain ⟨⟨lt, inner⟩, rest⟩ := (nests_heading ..).1 h
    intro l' mem
    rw [levels, flatten_heading, List.filterMap_cons] at mem
    simp only [level?, List.filterMap_append, List.mem_cons, List.mem_append] at mem
    rcases mem with rfl | mem | mem
    · exact lt
    · exact Nat.lt_trans lt (ihChildren inner l' mem)
    · exact ihNodes rest l' mem
  | other n nodes hn ih =>
    obtain ⟨first, rest⟩ := (nests_cons ..).1 h
    intro l mem
    rw [levels, flatten_cons_of_level? hn, List.filterMap_cons, hn] at mem
    exact ih rest l mem

/-! ## Forests of flat lists -/

/-- A flat list whose headings are deeper than `level` makes a forest that descends below it. -/
theorem nests_nest (flat : Flat nodes) (h : ∀ n ∈ nodes, NestsOne level n) :
    Nests level (nest nodes) := by
  fun_induction nest nodes generalizing level with
  | case1 => exact nests_nil _
  | case2 l title children rest below after =>
    obtain rfl := flat l title children (List.mem_cons_self ..)
    have first := h _ (List.mem_cons_self ..)
    rw [NestsOne] at first
    have inOwned : ∀ n ∈ owned l rest, NestsOne l n := by
      intro n mem
      have inside := h n (List.mem_cons_of_mem _ ((List.takeWhile_sublist _).mem mem))
      rcases hn : n.level? with _ | k
      · exact inside.of_level? hn l
      · cases n with
        | heading k t c =>
          have deeper := deeper_owned l rest _ mem
          rw [NestsOne] at inside ⊢
          exact ⟨by simpa [endsSection] using deeper, inside.2⟩
        | _ => cases hn
    have inUnowned : ∀ n ∈ unowned l rest, NestsOne level n := fun n mem =>
      h n (List.mem_cons_of_mem _ ((List.dropWhile_sublist _).mem mem))
    rw [List.nil_append, nests_heading]
    exact ⟨⟨first.1, below flat.tail.owned inOwned⟩, after flat.tail.unowned inUnowned⟩
  | case3 n rest other ih =>
    rw [nests_cons]
    exact ⟨h n (List.mem_cons_self ..), ih flat.tail fun m mem => h m (List.mem_cons_of_mem n mem)⟩

/-- What a heading owns descends below it, wherever the heading is found. -/
theorem Nests.of_find {wanted : String} {found : Heading} (h : Nests level nodes)
    (find : findNormalized? wanted nodes = some found) : Nests found.level found.children := by
  induction nodes using headingInduction generalizing level with
  | nil => rw [findNormalized?] at find; cases find
  | heading l title children nodes ihChildren ihNodes =>
    obtain ⟨⟨lt, inner⟩, rest⟩ := (nests_heading ..).1 h
    rw [findNormalized?, findInOne?] at find
    split at find
    · next hit =>
      cases find
      split at hit
      · cases hit
        exact inner
      · exact ihChildren inner hit
    · exact ihNodes rest find
  | other n nodes hn ih =>
    rw [findNormalized?, findInOne?_of_level? hn] at find
    exact ih ((nests_cons ..).1 h).2 find

end Longform.Node
